import DistinctCount.Proofs.System.Pipeline
import DistinctCount.Proofs.System.Tickets
import DistinctCount.Schedule.Turn

namespace DistinctCount

open Container

variable {h h' : List Moment} {m : Moment} {s s' s'' : System} {e : Event} {key : String}
  {id : SketchId} {ticket : Ticket} {n k : Nat}

/-- The backend carries out a request of the write of a sketch. -/
def Moment.Made (m : Moment) (id : SketchId) (request : Request) : Prop :=
  ∃ job, m.answered? = some (job, .ok ()) ∧ job.sketch = id ∧ job.request = request

def Quiet (h : List Moment) : Prop :=
  ∀ m ∈ h, ∀ job, m.answered? ≠ some (job, .ok ())

def Deleted (h : List Moment) (id : SketchId) (key : String) : Prop :=
  ∃ before d between, h = before ++ d :: between ∧ d.Made id (.delete key) ∧ Quiet between

/-- A flush has followed the delete of the key of a sketch, with no successful write between the two. -/
def Confirmed (h : List Moment) (id : SketchId) (key : String) : Prop :=
  ∃ before d between f after, h = before ++ d :: between ++ f :: after ∧
    d.Made id (.delete key) ∧ Quiet between ∧ f.Made id .flush

theorem Quiet.concat (hq : Quiet h) (hm : ∀ job, m.answered? ≠ some (job, .ok ())) :
    Quiet (h ++ [m]) := by
  intro m' hm'
  rcases List.mem_append.1 hm' with hm' | hm'
  · exact hq m' hm'
  · rwa [List.mem_singleton.1 hm']

theorem Deleted.concat (hd : Deleted h id key) (hm : ∀ job, m.answered? ≠ some (job, .ok ())) :
    Deleted (h ++ [m]) id key := by
  obtain ⟨before, d, between, rfl, hmade, hquiet⟩ := hd
  exact ⟨before, d, between ++ [m], List.append_assoc .., hmade, hquiet.concat hm⟩

theorem Confirmed.append (hc : Confirmed h id key) (h' : List Moment) : Confirmed (h ++ h') id key := by
  obtain ⟨before, d, between, f, after, rfl, hrest⟩ := hc
  exact ⟨before, d, between, f, after ++ h', List.append_assoc .., hrest⟩

namespace Container

variable {c c' : Container} {job : Job} {answer : Backend.Answer}

theorem sketch_beginDelete (hc : c.Coherent n) (hn : n < 2 ^ 62) (hp : c.persistent = true)
    (hopen : c.closed = false) (hget : c.get? key = some id) :
    (c.beginDelete key).1 = .waiting c.nextTicket ∧
      (c.beginDelete key).2.sketches.next = c.sketches.next ∧
      (c.beginDelete key).2.nextTicket = c.nextTicket + 1 ∧
      ((c.beginDelete key).2.sketch id).deleted = true ∧
      ∀ other ≠ id, (c.beginDelete key).2.sketch other = c.sketch other := by
  obtain ⟨made, -, -⟩ := hc.get?_eq_some.1 hget
  have made' : id < (c.moveEntry id none).sketches.next := by rwa [next_moveEntry]
  have hnext : ((c.moveEntry id none).retire id key [c.nextTicket]).sketches.next =
      c.sketches.next := next_retire.trans next_moveEntry
  have hticket : ((c.moveEntry id none).retire id key [c.nextTicket]).nextTicket =
      c.nextTicket + 1 := congrArg (· + 1) nextTicket_moveEntry
  have hself : (((c.moveEntry id none).retire id key [c.nextTicket]).sketch id).deleted = true := by
    rw [sketch_retire, Registry.sketch_modify_self made']
    rfl
  have hother (other : SketchId) (hne : other ≠ id) :
      ((c.moveEntry id none).retire id key [c.nextTicket]).sketch other = c.sketch other := by
    rw [sketch_retire, Registry.sketch_modify_of_ne hne, sketch_moveEntry _ _ made, if_neg hne]
  rw [beginDelete_spec hc hn hp hopen hget, awaiting]
  generalize (c.moveEntry id none).retire id key [c.nextTicket] = d at *
  dsimp only
  split
  · exact ⟨rfl, hnext, hticket, hself, hother⟩
  · refine ⟨rfl, ?_, hticket, ?_, ?_⟩
    · rw [toRegistry_dismiss, Registry.next_modify, hnext]
    · rw [toRegistry_dismiss, Registry.sketch_modify_self (hnext ▸ made)]
      exact hself
    · intro other hne
      rw [toRegistry_dismiss, Registry.sketch_modify_of_ne hne, hother other hne]

/-- Where the ticket of a deletion is, and what has happened before it is there. -/
structure Promised (id : SketchId) (key : String) (ticket : Ticket) (h : List Moment)
    (c : Container) : Prop where
  issued : ticket < c.nextTicket
  made : id < c.sketches.next
  under : (c.sketch id).key = key
  waiters : ∀ other, ticket ∈ (c.sketch other).waiters → other = id
  flushing : ∀ job ∈ c.jobs, ∀ waiters, job.stage = .flush waiters → ticket ∈ waiters →
    job.sketch = id ∧ Deleted h id key
  confirmed : (ticket, .confirmed) ∈ c.notices → Confirmed h id key

theorem promised_beginDelete (hc : c.Coherent n) (hn : n < 2 ^ 62) (hi : c.Issued)
    (hp : c.persistent = true) (hopen : c.closed = false) (hget : c.get? key = some id) :
    Promised id key c.nextTicket [] (c.beginDelete key).2 := by
  obtain ⟨-, hnext, hticket, -, hother⟩ := sketch_beginDelete hc hn hp hopen hget
  obtain ⟨made, -, hkey⟩ := hc.get?_eq_some.1 hget
  have changes := changes_beginDelete hc hn hp key
  have tickets := changes.tickets
  obtain ⟨-, -, -, -, -, hjob, hdrain⟩ := changes.frame
  refine ⟨hticket ▸ Nat.lt_succ_self _, by rwa [hnext], (changes.revision made).key.trans hkey, ?_, ?_, ?_⟩
  · intro other ht
    by_contra hne
    rw [hother other hne] at ht
    exact absurd (hi.waiters other _ ht) (Nat.lt_irrefl _)
  · intro job hj waiters hstage ht
    rw [jobs, hjob, hdrain] at hj
    exact absurd (hi.flushing job hj waiters hstage _ ht) (Nat.lt_irrefl _)
  · intro hconfirmed
    rcases tickets.notices _ hconfirmed with hold | ⟨hdenied, -⟩
    · exact absurd (hi.notices _ hold) (Nat.lt_irrefl _)
    · exact absurd rfl hdenied

end Container

namespace System

theorem Sane.promised (hs : s.Sane n) (hn : n < 2 ^ 62) (hp : Promised id key ticket h s.container)
    (he : s.next? e = some s') : Promised id key ticket (h ++ [⟨s, e⟩]) s'.container := by
  have hmove := move_next? hs.orderly hs.coherent hn he
  have hpasses := hmove.passes hs.coherent hn
  obtain ⟨made, hkey, -⟩ := hmove.kept hs.coherent hn hp.made
  refine ⟨Nat.lt_of_lt_of_le hp.issued hpasses.next, made, hkey.trans hp.under, ?_, ?_, ?_⟩
  · intro other ht
    rcases hpasses.waiters other ticket ht with ht | ⟨hle, -⟩
    · exact hp.waiters other ht
    · exact absurd hp.issued (Nat.not_lt.2 hle)
  · intro job' hj' waiters hstage ht
    obtain ⟨job, hj, hsketch, -, ⟨hold, hquiet⟩ | ⟨hok, hdelete, rfl⟩⟩ :=
      hpasses.flushing job' hj' waiters hstage
    · obtain ⟨hid, hdeleted⟩ := hp.flushing job hj waiters hold ht
      exact ⟨hsketch.trans hid, hdeleted.concat hquiet⟩
    · obtain rfl := hp.waiters job.sketch ht
      have hkey : job.key = key := (hs.flow.sound job hj).key.trans hp.under
      refine ⟨hsketch, h, ⟨s, e⟩, [], rfl, ⟨job, hok, rfl, ?_⟩,
        fun _ hm => absurd hm List.not_mem_nil⟩
      rw [Job.request, hdelete, hkey]
  · intro hconfirmed
    obtain hold | ⟨hdenied, -⟩ | ⟨job, hj, answer, hanswered, -, hflush⟩ :=
      hpasses.notices _ hconfirmed
    · exact (hp.confirmed hold).append _
    · exact absurd rfl hdenied
    · obtain ⟨rfl, waiters, hstage, ht⟩ := hflush rfl
      obtain ⟨hid, before, d, between, rfl, hmade, hquiet⟩ := hp.flushing job hj waiters hstage ht
      refine ⟨before, d, between, ⟨s, e⟩, [], rfl, hmade, hquiet, job, hanswered, hid, ?_⟩
      rw [Job.request, hstage]

theorem Sane.promised_run (hs : s.Sane n) (hp : Promised id key ticket [] s.container)
    (run : Run s h s') (hn : n + h.length ≤ 2 ^ 62) : Promised id key ticket h s'.container := by
  induction run with
  | refl => exact hp
  | step run next ih =>
    rw [List.length_append, List.length_singleton, ← Nat.add_assoc] at hn
    exact (hs.run run (by omega)).promised (by omega) (ih (by omega)) next

end System

/-- An update of a key is of a sketch from the `n`-th on, in a state that it had in the history. -/
def Job.Carries (job : Job) (n : Nat) (key : String) (h : List Moment) : Prop :=
  ∀ expiresAt data, job.request = .update key expiresAt data → n ≤ job.sketch ∧
    ∃ m ∈ h, (m.before.container.sketch job.sketch).deleted = false ∧
      (m.before.container.sketch job.sketch).expiresAt = expiresAt ∧
      (m.before.container.sketch job.sketch).toBytes = data

theorem Job.Carries.append {job : Job} (hc : job.Carries n key h) (h' : List Moment) :
    job.Carries n key (h ++ h') := by
  intro expiresAt data hrequest
  obtain ⟨hle, m, hm, hrest⟩ := hc expiresAt data hrequest
  exact ⟨hle, m, List.mem_append_left _ hm, hrest⟩

theorem Moment.mem_jobs {job : Job} {answer : Backend.Answer}
    (h : m.answered? = some (job, answer)) : job ∈ m.before.container.jobs := by
  unfold Moment.answered? at h
  split at h
  · rename_i hjob
    obtain ⟨rfl, -⟩ := Prod.mk.inj (Option.some.inj h)
    rw [jobs, hjob]
    exact List.mem_append_left _ (List.mem_singleton.2 rfl)
  · rename_i hdrain
    obtain ⟨rfl, -⟩ := Prod.mk.inj (Option.some.inj h)
    rw [jobs, hdrain]
    exact List.mem_append_right _ (List.mem_singleton.2 rfl)
  · cases h

namespace System

/-- All of the first `n` sketches that stood under a key are dead. -/
def Superseded (n : Nat) (key : String) (s : System) : Prop :=
  n ≤ s.container.sketches.next ∧
    ∀ id < n, (s.container.sketch id).key = key → (s.container.sketch id).deleted = true

theorem Sane.superseded_run (hs : s.Sane k) (hd : s.Superseded n key) (run : Run s h s')
    (hn : k + h.length ≤ 2 ^ 62) : s'.Superseded n key := by
  refine ⟨?_, ?_⟩
  · exact Nat.le_trans hd.1 (hs.next_le_run run hn)
  · intro id hid hkey
    obtain ⟨-, hsame, -, hdeleted⟩ := hs.kept_run run hn (Nat.lt_of_lt_of_le hid hd.1)
    exact hdeleted (hd.2 id hid (hsame.symm.trans hkey))

theorem Sane.carries (hs : s.Sane k) (hk : k < 2 ^ 62) (hd : s.Superseded n key)
    (hc : ∀ job ∈ s.container.jobs, job.Carries n key h) (he : s.next? e = some s') :
    ∀ job ∈ s'.container.jobs, job.Carries n key (h ++ [⟨s, e⟩]) := by
  have hold : ∀ job ∈ s.container.jobs, job.Carries n key (h ++ [⟨s, e⟩]) :=
    fun job hj => (hc job hj).append _
  have hmove := move_next? hs.orderly hs.coherent hk he
  generalize Moment.answered? ⟨s, e⟩ = answered at hmove
  cases hmove with
  | client changes =>
    obtain ⟨-, -, -, -, -, hjob, hdrain⟩ := changes.frame
    rw [jobs, hjob, hdrain]
    exact hold
  | carry still jobs =>
    rw [jobs]
    exact hold
  | start id still idle jobs =>
    intro job hj expiresAt data hrequest
    rw [jobs, List.mem_singleton] at hj
    subst hj
    obtain ⟨hlive, hkey, hexpires, hdata⟩ := WriteBack.begin_update hrequest
    refine ⟨?_, ⟨s, e⟩, List.mem_append_right _ (List.mem_singleton.2 rfl), hlive, hexpires, hdata⟩
    by_contra hlt
    have hdead := hd.2 id (Nat.lt_of_not_le hlt) hkey
    exact absurd (hlive.symm.trans hdead) (by decide)
  | answer job answer hand writeBack jobs =>
    intro job' hj' expiresAt data hrequest
    rw [jobs, Option.mem_toList] at hj'
    have hj : job ∈ s.container.jobs := by
      rw [hand]
      exact List.mem_singleton.2 rfl
    have outcome := WriteBack.outcome_proceed s.container.toWriteBack job answer
    obtain ⟨hsketch, hkey, -, ⟨hsame, -⟩ | ⟨-, -, hflush⟩⟩ := outcome.onward hj'
    · have hrequest' : job.request = .update key expiresAt data := by
        rw [← hrequest, Job.request, Job.request, hsame, hkey]
      rw [hsketch]
      exact hold job hj expiresAt data hrequest'
    · rw [Job.request, hflush] at hrequest
      cases hrequest

theorem Sane.carries_run (hs : s.Sane k) (hd : s.Superseded n key)
    (hc : ∀ job ∈ s.container.jobs, job.Carries n key []) (run : Run s h s')
    (hn : k + h.length ≤ 2 ^ 62) : ∀ job ∈ s'.container.jobs, job.Carries n key h := by
  induction run with
  | refl => exact hc
  | step run next ih =>
    rw [List.length_append, List.length_singleton, ← Nat.add_assoc] at hn
    exact (hs.run run (by omega)).carries (by omega) (hs.superseded_run hd run (by omega))
      (ih (by omega)) next

theorem Sane.carries_answered (hs : s.Sane k) (hd : s.Superseded n key)
    (hc : ∀ job ∈ s.container.jobs, job.Carries n key []) (run : Run s h s')
    (hn : k + h.length ≤ 2 ^ 62) :
    ∀ m ∈ h, ∀ job answer, m.answered? = some (job, answer) → job.Carries n key h := by
  intro m hm job answer hanswered
  obtain ⟨before, after, rfl, hfirst, -⟩ := run.since hm
  rw [List.length_append] at hn
  exact (hs.carries_run hd hc hfirst (by omega) job (Moment.mem_jobs hanswered)).append _

/-- Once the key of a dead sketch is deleted, no write is under way but its flush. -/
theorem Sane.carries_of_made (hs : s.Sane k) (hk : k < 2 ^ 62) {h : List Moment}
    (hmade : Moment.Made ⟨s, e⟩ id (.delete key)) (he : s.next? e = some s') :
    ∀ job ∈ s'.container.jobs, job.Carries n key h := by
  obtain ⟨job, hanswered, -, -⟩ := hmade
  have hmove := move_next? hs.orderly hs.coherent hk he
  rw [hanswered] at hmove
  cases hmove with
  | answer _ _ hand writeBack jobs =>
    intro job' hj' expiresAt data hrequest
    rw [jobs, Option.mem_toList] at hj'
    have outcome := WriteBack.outcome_proceed s.container.toWriteBack job (.ok ())
    obtain ⟨-, -, -, ⟨-, hne⟩ | ⟨-, -, hflush⟩⟩ := outcome.onward hj'
    · exact absurd rfl hne
    · rw [Job.request, hflush] at hrequest
      cases hrequest

/-- All that was under a key when it is deleted is dead after that. -/
theorem Sane.superseded (hs : s.Sane k) (hk : k < 2 ^ 62) (hopen : s.container.closed = false)
    (hget : s.container.get? key = some id) (he : s.next? (.delete key) = some s') :
    s'.Superseded s.container.sketches.next key := by
  obtain ⟨-, hnext, -, hdead, hother⟩ :=
    sketch_beginDelete hs.coherent hk hs.orderly.persistent hopen hget
  have hcontainer := next?_delete he
  rw [← hcontainer] at hnext hdead hother
  refine ⟨Nat.le_of_eq hnext.symm, ?_⟩
  intro other hlt hkey
  by_cases hne : other = id
  · rw [hne]
    exact hdead
  · rw [hother other hne] at hkey ⊢
    by_contra hlive
    have hget' := hs.coherent.get?_eq_some.2 ⟨hlt, Bool.eq_false_of_not_eq_true hlive, hkey⟩
    exact hne (Option.some.inj (hget'.symm.trans hget))

end System

/-- The task of a deletion that has waited ends with the reply to its caller. -/
theorem reply_of_deletionTurn {w w' : Schedule.World} {t : Schedule.TaskId} {home : Schedule.Home}
    {awaited : Schedule.Awaited} {reply : Schedule.Reply}
    (h : w.deletionTurn t home key (some awaited) = .finish w' reply) :
    reply = match (w.container home).deletionReply key awaited.ticket with
      | .ok answer => .flag answer
      | .error e => .failed e := by
  unfold deletionReply
  unfold Schedule.World.deletionTurn at h
  cases hnotice : (w.container home).notice? awaited.ticket with
  | none =>
    simp only [hnotice] at h
    split at h
    · cases h
    · split at h
      · exact (Schedule.Turn.finish.inj h).2.symm
      · cases h
  | some confirmation =>
    simp only [hnotice] at h
    cases confirmation <;> exact (Schedule.Turn.finish.inj h).2.symm

/-- A deletion from its call to its reply, with all that happens in between. -/
inductive Deletion (key : String) (s : System) : List Moment → System → Except Error Bool → Prop
  | refused {s' : System} (removal : (s.container.beginDelete key).1 = .refused)
      (called : s.next? (.delete key) = some s') :
      Deletion key s [⟨s, .delete key⟩] s' (.error (.deleteAborted key))
  | unknown {s' : System} (removal : (s.container.beginDelete key).1 = .unknown)
      (called : s.next? (.delete key) = some s') : Deletion key s [⟨s, .delete key⟩] s' (.ok false)
  | removed {s' : System} (removal : (s.container.beginDelete key).1 = .removed)
      (called : s.next? (.delete key) = some s') : Deletion key s [⟨s, .delete key⟩] s' (.ok true)
  | waited {s₁ s₂ s' : System} {h : List Moment} {ticket : Ticket}
      (removal : (s.container.beginDelete key).1 = .waiting ticket)
      (called : s.next? (.delete key) = some s₁) (meanwhile : Run s₁ h s₂)
      (ends : s₂.next? (.deleteEnds key ticket) = some s') :
      Deletion key s (⟨s, .delete key⟩ :: (h ++ [⟨s₂, .deleteEnds key ticket⟩])) s'
        (s₂.container.deletionReply key ticket)

theorem Deletion.began {reply : Except Error Bool} (deletion : Deletion key s h s' reply) :
    ∃ s₁ rest, h = ⟨s, .delete key⟩ :: rest ∧ s.next? (.delete key) = some s₁ ∧ Run s₁ rest s' := by
  cases deletion with
  | refused _ called => exact ⟨_, [], rfl, called, .refl⟩
  | unknown _ called => exact ⟨_, [], rfl, called, .refl⟩
  | removed _ called => exact ⟨_, [], rfl, called, .refl⟩
  | waited _ called meanwhile ends => exact ⟨_, _, rfl, called, meanwhile.step ends⟩

theorem Deletion.run {reply : Except Error Bool} (deletion : Deletion key s h s' reply) :
    Run s h s' := by
  obtain ⟨s₁, rest, rfl, called, run⟩ := deletion.began
  exact (Run.refl.step called).append run

namespace Container

variable {c : Container}

theorem confirmed_of_reply (h : c.deletionReply key ticket = .ok true) :
    (ticket, .confirmed) ∈ c.notices := by
  unfold deletionReply at h
  split at h
  · rename_i hnotice
    obtain ⟨before, after, heq, -⟩ := List.lookup_eq_some_iff.1 hnotice
    rw [heq]
    exact List.mem_append_right _ List.mem_cons_self
  all_goals cases h

theorem Ready.issued {config : Config} (hr : Ready config c) : c.Issued := by
  obtain ⟨-, -, -, -, -, -, hnotices, -⟩ := hr.idle
  refine ⟨?_, ?_, ?_⟩
  · intro id ticket ht
    rw [hr.waiters id] at ht
    cases ht
  · intro job hj
    rw [hr.jobs] at hj
    cases hj
  · intro notice hn
    rw [hnotices] at hn
    cases hn

end Container

/-- A deletion that has waited for its reply and is told of a success. -/
theorem System.Sane.confirmed_deletion {reply : Except Error Bool} (hs : s.Sane n)
    (hi : s.container.Issued) (deletion : Deletion key s h s' reply) (hreply : reply = .ok true)
    (hn : n + h.length ≤ 2 ^ 62) :
    ∃ id, s.container.get? key = some id ∧ ∃ s₁ s₂ rest last, h = ⟨s, .delete key⟩ :: (rest ++ [last]) ∧
      s₁.Sane (n + 1) ∧ s₁.Superseded s.container.sketches.next key ∧ Run s₁ rest s₂ ∧
      last.before = s₂ ∧ s₂.next? last.event = some s' ∧ Confirmed rest id key := by
  have hp := hs.orderly.persistent
  have hpos := List.length_pos_of_ne_nil (l := h) (by
    obtain ⟨_, _, rfl, -⟩ := deletion.began
    exact List.cons_ne_nil _ _)
  have hn' : n < 2 ^ 62 := by omega
  cases hopen : s.container.closed with
  | true =>
    have hrefused := beginDelete_of_closed hp hopen key
    cases deletion with
    | refused => cases hreply
    | unknown removal => rw [hrefused] at removal; cases removal
    | removed removal => rw [hrefused] at removal; cases removal
    | waited removal => rw [hrefused] at removal; cases removal
  | false =>
    cases hget : s.container.get? key with
    | none =>
      have hunknown := beginDelete_of_unknown hopen hget
      cases deletion with
      | refused => cases hreply
      | unknown => cases hreply
      | removed removal => rw [hunknown] at removal; cases removal
      | waited removal => rw [hunknown] at removal; cases removal
    | some id =>
      have hwaiting := (sketch_beginDelete hs.coherent hn' hp hopen hget).1
      cases deletion with
      | refused => cases hreply
      | unknown => cases hreply
      | removed removal => rw [hwaiting] at removal; cases removal
      | @waited s₁ s₂ _ rest ticket removal called meanwhile ends =>
        rw [hwaiting] at removal
        obtain rfl := Removal.waiting.inj removal
        simp only [List.length_cons, List.length_append, List.length_nil] at hn
        have hpromised := promised_beginDelete hs.coherent hn' hi hp hopen hget
        rw [← next?_delete called] at hpromised
        have hs₁ := hs.next? hn' called
        have hlast := hs₁.promised_run hpromised meanwhile (by omega)
        exact ⟨id, rfl, s₁, s₂, rest, _, rfl, hs₁, hs.superseded hn' hopen hget called, meanwhile,
          rfl, ends, hlast.confirmed (confirmed_of_reply hreply)⟩

theorem System.Sane.unreachable (hs : s.Sane n) (hdead : (s.container.sketch id).deleted = true) :
    (∀ shard key, s.container.shards.get? shard key ≠ some id) ∧
      ∀ bucket key entry, s.container.expiry.get? bucket key = some entry → entry.sketch ≠ id := by
  refine ⟨?_, ?_⟩
  · intro shard key hget
    obtain ⟨-, hlive, -⟩ := (hs.coherent.sound.get?_shard shard key id).1 hget
    exact absurd (hlive.symm.trans hdead) (by decide)
  · rintro bucket key entry hentry rfl
    obtain ⟨-, -, -, hlive, -⟩ := hs.coherent.indexed bucket key entry hentry
    exact absurd (hlive.symm.trans hdead) (by decide)

/-- The delete that a dead sketch stands for was not made while the sketch was live. -/
theorem System.Sane.made_of_erased {h₀ rest : List Moment} {start : System} (hs : start.Sane n)
    (past : Run start h₀ s) (hlive : s.container.get? key = some id)
    (he : Erased (h₀ ++ ⟨s, .delete key⟩ :: rest) id key) (hn : n + h₀.length ≤ 2 ^ 62) :
    ∃ m ∈ rest, m.Made id (.delete key) := by
  obtain ⟨m, hm, job, hanswered, hsketch, hrequest, hdead⟩ := he
  rcases List.mem_append.1 hm with hm | hm
  · obtain ⟨before, after, rfl, hfirst, hrest⟩ := past.since hm
    rw [List.length_append] at hn
    have hmoment := hs.run hfirst (by omega)
    obtain ⟨-, -, -, hdeleted⟩ := hmoment.kept_run hrest (by omega) (lt_next_of_dead hdead)
    obtain ⟨-, hlive, -⟩ := (hs.run past (by rw [List.length_append]; omega)).coherent.get?_eq_some.1 hlive
    exact absurd (hlive.symm.trans (hdeleted hdead)) (by decide)
  · rcases List.mem_cons.1 hm with rfl | hm
    · cases hanswered
    · exact ⟨m, hm, job, hanswered, hsketch, hrequest⟩

/--
A deletion that succeeds comes after a delete of its key and a flush, both in the write of the sketch
that was removed and with no successful write between them; every update of the key from that delete on
carries a state of a sketch that is made after the removal. A deletion of a live key that fails has
removed the sketch all the same, and unless the backend is stopped the sketch is in the pipeline until a
delete of its key has been successful.
-/
theorem deletion_durable {config : Config} {now : UInt64} {b : Backend}
    {opening : List (Request × Backend.Answer)} {c : Container} {h₀ : List Moment}
    {reply : Except Error Bool} (opens : Opens (beginOpen config now b.scan) opening c)
    (past : Run (System.start c) h₀ s) (deletion : Deletion key s h s' reply)
    (later : Run s' h' s'') (short : h₀.length + h.length + h'.length < 2 ^ 62) :
    (reply = .ok true → ∃ id, s.container.get? key = some id ∧
      ∃ before d between f after, h = before ++ d :: between ++ f :: after ∧
        d.Made id (.delete key) ∧ Quiet between ∧ f.Made id .flush ∧
        ∀ m ∈ between ++ f :: after ++ h', ∀ job answer, m.answered? = some (job, answer) →
          job.Carries s.container.sketches.next key (between ++ f :: after ++ h')) ∧
    (∀ e id, reply = .error e → s.container.closed = false → s.container.get? key = some id →
      (∀ shard key, s''.container.shards.get? shard key ≠ some id) ∧
      (∀ bucket key entry, s''.container.expiry.get? bucket key = some entry → entry.sketch ≠ id) ∧
      (Alive (calls (h₀ ++ h ++ h')) →
        id ∈ s''.container.pipeline ∨ ∃ m ∈ h ++ h', m.Made id (.delete key))) := by
  have hready := opens.ready_beginOpen
  have hsane := hready.sane.run past (by omega)
  refine ⟨?_, ?_⟩
  · intro hreply
    have hissued := hready.sane.issued_run hready.issued past (by omega)
    obtain ⟨id, hget, s₁, s₂, rest, last, rfl, hs₁, hsuperseded, meanwhile, rfl, ends, hconfirmed⟩ :=
      hsane.confirmed_deletion hissued deletion hreply (by omega)
    obtain ⟨before, d, between, f, after, rfl, hmade, hquiet, hflush⟩ := hconfirmed
    simp only [List.length_cons, List.length_append, List.length_nil] at short
    refine ⟨id, hget, ⟨s, .delete key⟩ :: before, d, between, f, after ++ [last], ?_, hmade, hquiet,
      hflush, ?_⟩
    · simp only [List.append_assoc, List.cons_append]
    · rw [List.append_assoc, List.cons_append] at meanwhile
      obtain ⟨s₃, hfirst, hnext, hrest⟩ := meanwhile.moment
      have hall := (hrest.step ends).append later
      have hd := hs₁.run hfirst (by omega)
      have hs₃ := hd.next? (by omega) hnext
      have hsuperseded₃ := hd.superseded_run (hs₁.superseded_run hsuperseded hfirst (by omega))
        (Run.refl.step hnext) (by rw [List.length_append, List.length_singleton, List.length_nil]; omega)
      have hcarries := hs₃.carries_answered hsuperseded₃
        (hd.carries_of_made (by omega) hmade hnext) hall (by
          simp only [List.length_append, List.length_cons, List.length_nil]
          omega)
      simp only [List.append_assoc, List.cons_append] at hcarries ⊢
      exact hcarries
  · intro e id hreply hopen hget
    obtain ⟨s₁, rest, rfl, called, run⟩ := deletion.began
    rw [List.length_cons] at short
    have hlater := run.append later
    have hs₁ := hsane.next? (by omega) called
    obtain ⟨made, -, hkey⟩ := hsane.coherent.get?_eq_some.1 hget
    obtain ⟨-, -, -, hdead, -⟩ :=
      sketch_beginDelete hsane.coherent (by omega) hsane.orderly.persistent hopen hget
    rw [← System.next?_delete called] at hdead
    have hend := hs₁.run hlater (by rw [List.length_append]; omega)
    obtain ⟨made₁, hkey₁, -, -⟩ := hsane.kept_run (Run.refl.step called)
      (by rw [List.length_append, List.length_singleton, List.length_nil]; omega) made
    obtain ⟨-, hkey', -, hstays⟩ := hs₁.kept_run hlater (by rw [List.length_append]; omega) made₁
    obtain ⟨hshards, hindex⟩ := hend.unreachable (hstays hdead)
    refine ⟨hshards, hindex, ?_⟩
    intro alive
    have hall : Run (System.start c) (h₀ ++ ⟨s, .delete key⟩ :: (rest ++ h')) s'' :=
      past.append ((Run.refl.step called).append hlater)
    have hlength : 0 + (h₀ ++ (⟨s, .delete key⟩ : Moment) :: (rest ++ h')).length ≤ 2 ^ 62 := by
      simp only [List.length_append, List.length_cons]
      omega
    rw [List.append_assoc, List.cons_append] at alive
    by_cases hclean : (s''.container.sketch id).pending = 0
    · have htraced := (System.traced_start hready).run hready.sane hall hlength
      have herased := htraced.gone id (lt_next_of_dead (hstays hdead)) (hstays hdead) hclean
      rw [hkey', hkey₁, hkey] at herased
      obtain ⟨m, hm, hmade⟩ := hready.sane.made_of_erased past hget herased (by omega)
      exact .inr ⟨m, List.mem_cons_of_mem _ hm, hmade⟩
    · exact .inl (hready.sane.intact_run hready.intact hall hlength alive id hclean)

theorem deletion_durable_sample :
    ∃ s h s', Deletion "k" s h s' (.ok true) ∧ ∃ id, s.container.get? "k" = some id ∧
      ∃ d ∈ h, ∃ f ∈ h, d.Made id (.delete "k") ∧ f.Made id .flush := by
  have hall : (do
      let past ← (System.start sampleContainer).play? [.add 0 "k" (some [1]) 0]
      let s₁ ← past.2.next? (.delete "k")
      let later ← s₁.play? [.saverTake (partitionOf 1), .saverSend (partitionOf 1), .writerTake,
        .writerAnswer (.ok ()), .writerAnswer (.ok ())]
      let s' ← later.2.next? (.deleteEnds "k" past.2.container.nextTicket)
      guard (past.1.length + later.1.length < 10 ∧
        (later.2.container.deletionReply "k" past.2.container.nextTicket).toOption = some true ∧
        past.2.container.closed = false ∧ (past.2.container.get? "k").isSome = true)
      return s').isSome = true := by decide +kernel
  simp only [Option.isSome_iff_exists, Option.bind_eq_bind, Option.bind_eq_some_iff] at hall
  obtain ⟨_, ⟨h₀, s⟩, hpast, s₁, called, ⟨h, s₂⟩, hmeanwhile, s', ends, _, hguard, _⟩ := hall
  dsimp only at hpast called hmeanwhile ends hguard
  obtain ⟨short, hreply, hopen, hlive⟩ := (Option.guard_eq_some' _).1 hguard
  obtain ⟨id, hget⟩ := Option.isSome_iff_exists.1 hlive
  have past := run_of_play? hpast
  have hsane := opens_sampleContainer.ready_beginOpen.sane.run past (by omega)
  have removal := (sketch_beginDelete hsane.coherent (by omega) hsane.orderly.persistent hopen hget).1
  have deletion := Deletion.waited removal called (run_of_play? hmeanwhile) ends
  have hok : s₂.container.deletionReply "k" s.container.nextTicket = .ok true := by
    cases he : s₂.container.deletionReply "k" s.container.nextTicket with
    | error e =>
      rw [he] at hreply
      cases hreply
    | ok answer =>
      rw [he] at hreply
      exact congrArg _ (Option.some.inj hreply)
  rw [hok] at deletion
  have hdurable := deletion_durable opens_sampleContainer past deletion .refl (by
    simp only [List.length_cons, List.length_append, List.length_nil]
    omega)
  obtain ⟨id', hget', before, d, between, f, after, heq, hd, -, hf, -⟩ := hdurable.1 rfl
  refine ⟨s, _, s', deletion, id', hget', d, ?_, f, ?_, hd, hf⟩
  · rw [heq]
    simp
  · rw [heq]
    simp

end DistinctCount
