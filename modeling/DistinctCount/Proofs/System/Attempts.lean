import DistinctCount.Proofs.Drain.Run
import DistinctCount.Proofs.System.Opening

namespace DistinctCount

open Container

/-- The delete of a key with the answers to its attempts, in order. -/
structure Discard where
  key : String
  answers : List Backend.Answer

namespace Discard

variable {d : Discard} {request : Request} {answer : Backend.Answer}

def calls (d : Discard) : List (Request × Backend.Answer) :=
  d.answers.map fun answer => (.delete d.key, answer)

def Failed (d : Discard) : Prop :=
  .ok () ∉ d.answers

instance (d : Discard) : Decidable d.Failed :=
  inferInstanceAs (Decidable (_ ∉ _))

/-- Only a failure that may pass is tried again, up to a limit. -/
structure Tried (limit : Nat) (d : Discard) : Prop where
  attempted : d.answers ≠ []
  again : ∀ answer ∈ d.answers.dropLast, ∃ reason, answer = .error (.unavailable reason)
  length_le : d.answers.length ≤ limit
  exhausted : ∀ reason, .error (.unavailable reason) ∈ d.answers.getLast? → d.answers.length = limit

theorem mem_calls : (request, answer) ∈ d.calls ↔ request = .delete d.key ∧ answer ∈ d.answers := by
  simp only [calls, List.mem_map, Prod.mk.injEq]
  constructor
  · rintro ⟨a, ha, rfl, rfl⟩
    exact ⟨rfl, ha⟩
  · rintro ⟨rfl, ha⟩
    exact ⟨answer, ha, rfl, rfl⟩

end Discard

def Container.afterDiscard (c : Container) (d : Discard) : Container :=
  if d.Failed then c.deferDelete d.key else c

variable {o : Opening} {calls : List (Request × Backend.Answer)} {c : Container} {key : String}
  {rest : List String} {b b' : Backend}

theorem Container.retry_deferDelete (c : Container) (key : String) :
    (c.deferDelete key).retry = c.retry := by
  unfold deferDelete alter WriteBack.schedule
  dsimp only
  split <;> rfl

theorem Container.retry_afterDiscard (c : Container) (d : Discard) :
    (c.afterDiscard d).retry = c.retry := by
  unfold afterDiscard
  split
  · exact retry_deferDelete c d.key
  · rfl

theorem Opens.first (h : Opens o calls c) (ho : o.expired = key :: rest) :
    ∃ faults last others,
      calls = (faults ++ [last]).map (fun answer => (.delete key, answer)) ++ others ∧
      (∀ answer ∈ faults, ∃ reason, answer = .error (.unavailable reason)) ∧
      (faults ≠ [] → o.attempt.toNat + faults.length ≤ o.container.retry.maxAttempts.toNat) ∧
      (∀ reason, last = .error (.unavailable reason) →
        o.container.retry.maxAttempts.toNat ≤ o.attempt.toNat + faults.length) ∧
      Opens { container := if last = .ok () then o.container else o.container.deferDelete key
              expired := rest } others c := by
  induction h with
  | @done o finished =>
    rw [Opening.request?, ho] at finished
    cases finished
  | @step o request answer calls c call tail ih =>
    obtain ⟨key', rest', hkey, rfl⟩ := request?_eq_some call
    obtain ⟨rfl, rfl⟩ := List.cons.inj (ho.symm.trans hkey)
    rcases proceed_spec ho answer with ⟨reason, rfl, hmore, heq⟩ | ⟨hlast, heq⟩
    · rw [heq] at ih
      obtain ⟨faults, last, others, rfl, hfaults, hroom, hfull, hrest⟩ := ih ho
      dsimp only at hroom hfull
      rw [Drainage.toNat_attempt hmore] at hroom hfull
      have hmore := UInt32.lt_iff_toNat_lt.1 hmore
      refine ⟨.error (.unavailable reason) :: faults, last, others, rfl, ?_, ?_, ?_, hrest⟩
      · exact List.forall_mem_cons.2 ⟨⟨reason, rfl⟩, hfaults⟩
      · intro _
        rw [List.length_cons]
        by_cases hnone : faults = []
        · rw [hnone, List.length_nil]
          omega
        · have := hroom hnone
          omega
      · intro reason' h'
        have := hfull reason' h'
        rw [List.length_cons]
        omega
    · rw [heq] at tail
      refine ⟨[], answer, calls, rfl, List.forall_mem_nil _, fun h => absurd rfl h, ?_, tail⟩
      intro reason h'
      exact UInt32.le_iff_toNat_le.1 (hlast reason h')

theorem tried_of_first {limit : Nat} {faults : List Backend.Answer} {last : Backend.Answer}
    (hfaults : ∀ answer ∈ faults, ∃ reason, answer = .error (.unavailable reason))
    (hroom : faults ≠ [] → 1 + faults.length ≤ limit)
    (hfull : ∀ reason, last = .error (.unavailable reason) → limit ≤ 1 + faults.length) :
    Discard.Tried (max 1 limit) ⟨key, faults ++ [last]⟩ := by
  have hlength : (faults ++ [last]).length = faults.length + 1 := List.length_append
  have hle : faults.length + 1 ≤ max 1 limit := by
    by_cases hnone : faults = []
    · rw [hnone, List.length_nil]
      omega
    · have := hroom hnone
      omega
  refine ⟨List.append_ne_nil_of_right_ne_nil _ (List.cons_ne_nil _ _), ?_, hlength.trans_le hle, ?_⟩
  · rwa [List.dropLast_concat]
  · intro reason hlast
    rw [List.getLast?_concat] at hlast
    have := hfull reason (Option.some.inj hlast)
    exact hlength.trans (by omega)

theorem failed_of_first {faults : List Backend.Answer} {last : Backend.Answer}
    (hfaults : ∀ answer ∈ faults, ∃ reason, answer = .error (.unavailable reason)) :
    Discard.Failed ⟨key, faults ++ [last]⟩ ↔ last ≠ .ok () := by
  have hfaulty : .ok () ∉ faults := by
    intro hok
    obtain ⟨reason, h⟩ := hfaults _ hok
    cases h
  simp only [Discard.Failed, List.mem_append, List.mem_singleton, hfaulty, false_or, ne_eq, eq_comm]

/-- The calls of an opening are the attempts to delete its keys, one key after the other. -/
theorem Opens.discards (h : Opens o calls c) (hfirst : o.attempt = 1) :
    ∃ ds : List Discard, ds.map (·.key) = o.expired ∧ calls = ds.flatMap (·.calls) ∧
      (∀ d ∈ ds, d.Tried (max 1 o.container.retry.maxAttempts.toNat)) ∧
      c = ds.foldl afterDiscard o.container := by
  induction hexpired : o.expired generalizing o calls with
  | nil =>
    cases h with
    | done => exact ⟨[], rfl, rfl, List.forall_mem_nil _, rfl⟩
    | step call =>
      obtain ⟨key, rest, hkey, -⟩ := request?_eq_some call
      rw [hexpired] at hkey
      cases hkey
  | cons key rest ih =>
    obtain ⟨faults, last, others, rfl, hfaults, hroom, hfull, hrest⟩ := h.first hexpired
    rw [hfirst, UInt32.toNat_one] at hroom hfull
    have hnext : (if last = .ok () then o.container else o.container.deferDelete key) =
        o.container.afterDiscard ⟨key, faults ++ [last]⟩ := by
      rw [afterDiscard, ← ite_not]
      simp only [failed_of_first hfaults, ne_eq]
    rw [hnext] at hrest
    obtain ⟨ds, hkeys, rfl, htried, hc⟩ := ih hrest rfl rfl
    rw [retry_afterDiscard] at htried
    refine ⟨⟨key, faults ++ [last]⟩ :: ds, ?_, rfl, ?_, hc⟩
    · rw [List.map_cons, hkeys]
    · exact List.forall_mem_cons.2 ⟨tried_of_first hfaults hroom hfull, htried⟩

/-- A store that is asked for nothing but deletes loses the keys of those that succeed. -/
theorem get?_of_deletes (h : b.Serves calls b') (hd : ∀ call ∈ calls, ∃ key, call.1 = .delete key)
    (key : String) :
    ((.delete key, .ok ()) ∈ calls → b'.get? key = none) ∧
      ((.delete key, .ok ()) ∉ calls → b'.get? key = b.get? key) := by
  induction h with
  | refl => exact ⟨fun h => absurd h List.not_mem_nil, fun _ => rfl⟩
  | @call calls b₁ served failNext request ih =>
    obtain ⟨hbefore, hlast⟩ := List.forall_mem_append.1 hd
    obtain ⟨target, htarget⟩ := hlast _ (List.mem_singleton.2 rfl)
    obtain rfl : request = .delete target := htarget
    obtain ⟨hgone, hkept⟩ := ih hbefore
    have hmem : (.delete key, .ok ()) ∈
        calls ++ [(.delete target, ({ b₁ with failNext }.perform (.delete target)).2)] ↔
        (.delete key, .ok ()) ∈ calls ∨
          key = target ∧ ({ b₁ with failNext }.perform (.delete target)).2 = .ok () := by
      simp only [List.mem_append, List.mem_singleton, Prod.mk.injEq, Request.delete.injEq,
        @eq_comm _ (Except.ok ())]
    rw [hmem, not_or, not_and]
    cases hanswer : ({ b₁ with failNext }.perform (.delete target)).2 with
    | ok =>
      rw [Backend.get?_perform_ok hanswer, Backend.after]
      split
      · rename_i hkey
        exact ⟨fun _ => rfl, fun h => absurd rfl (h.2 hkey)⟩
      · rename_i hkey
        exact ⟨fun h => hgone (h.resolve_right fun h' => hkey h'.1), fun h => hkept h.1⟩
    | error e =>
      rw [Backend.get?_perform_error hanswer]
      simp only [reduceCtorEq, and_false, or_false]
      exact ⟨hgone, fun h => hkept h.1⟩

def Backend.reply (b : Backend) (fails : Bool) : Answer :=
  if b.stopped then .error .stopped else if fails then .error injected else .ok ()

theorem Backend.perform_delete (b : Backend) (fails : Bool) (key : String) :
    ({ b with failNext := fails.toNat }.perform (.delete key)).2 = b.reply fails ∧
      ({ b with failNext := fails.toNat }.perform (.delete key)).1.stopped = b.stopped := by
  unfold perform delete write reply
  cases b.stopped <;> cases fails <;> simp

/-- Whichever calls are to fail, there is an opening with these failures. -/
theorem exists_opens (o : Opening) (b : Backend) (fails : Nat → Bool) :
    ∃ calls c b', Opens o calls c ∧ b.Serves calls b' ∧
      ∀ i request answer, calls[i]? = some (request, answer) → answer = b.reply (fails i) := by
  cases hcall : o.request? with
  | none => exact ⟨[], o.container, b, .done hcall, .refl, nofun⟩
  | some request =>
    obtain ⟨key, rest, hkey, rfl⟩ := request?_eq_some hcall
    obtain ⟨hanswer, hstopped⟩ := b.perform_delete (fails 0) key
    obtain ⟨calls, c, b', opens, serves, hpattern⟩ :=
      exists_opens (o.proceed (b.reply (fails 0))).2
        ({ b with failNext := (fails 0).toNat }.perform (.delete key)).1 (fun i => fails (i + 1))
    have hserve := Backend.Serves.refl.call (b := b) (fails 0).toNat (.delete key)
    rw [hanswer, List.nil_append] at hserve
    refine ⟨(.delete key, b.reply (fails 0)) :: calls, c, b', .step hcall opens,
      hserve.trans serves, ?_⟩
    intro i request answer hi
    cases i with
    | zero => exact (Prod.mk.inj (Option.some.inj hi)).2.symm
    | succ i =>
      have hlater := hpattern i request answer hi
      rwa [Backend.reply, hstopped] at hlater
termination_by (o.expired.length, o.container.retry.maxAttempts.toNat - o.attempt.toNat)
decreasing_by
  rcases proceed_spec hkey (b.reply (fails 0)) with ⟨reason, -, hmore, heq⟩ | ⟨-, heq⟩
  · rw [heq]
    have hnext := Drainage.toNat_attempt hmore
    have hlt := UInt32.lt_iff_toNat_lt.1 hmore
    exact Prod.Lex.right _ (by dsimp only; omega)
  · rw [heq, hkey]
    exact Prod.Lex.left _ _ (Nat.lt_succ_self _)

end DistinctCount
