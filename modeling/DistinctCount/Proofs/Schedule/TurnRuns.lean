import DistinctCount.Proofs.Schedule.Parts

namespace DistinctCount.Schedule

open Container

def Turn.part? : Turn → Option Part
  | .again _ activity => activity.part?
  | .wait _ activity => activity.part?
  | .finish _ _ => none

def Turn.FitsStage (s : System) : Turn → Prop
  | .again _ activity => activity.FitsStage s
  | .wait _ activity => activity.FitsStage s
  | .finish _ _ => True

namespace World

variable {w w' : World} {t : TaskId} {home : Home} {s s' : System} {p : Partition} {phase : Phase}
  {old : Option Part} {turn : Turn}

/-- The container at a home is that of a system in which the tasks are in order. -/
structure ContainerMatches (w : World) (home : Home) (s : System) : Prop where
  placed : home < w.containers.size
  container : w.container home = s.container
  orderly : s.Orderly
  ended : s.WriterEndsInTime

/-- A turn of a task of a home is a run of the system there, with the calls that are made in the turn. -/
def TurnIsRun (w : World) (home : Home) (s : System) (old : Option Part) (turn : Turn) : Prop :=
  ∃ new s', TaskRun s old turn.part? (made new) s' ∧ turn.world.container home = s'.container ∧
    turn.world.calls = new ++ w.calls ∧ turn.FitsStage s'

theorem turnIsRun_again {activity : Activity} (taskRun : TaskRun s old activity.part? [] s')
    (same : SameCalls w w') (container : w'.container home = s'.container)
    (fits : activity.FitsStage s') :
    w.TurnIsRun home s old (.again w' activity) :=
  ⟨[], s', taskRun, container, same.calls, fits⟩

theorem turnIsRun_wait {activity : Activity} (taskRun : TaskRun s old activity.part? [] s')
    (same : SameCalls w w') (container : w'.container home = s'.container)
    (fits : activity.FitsStage s') :
    w.TurnIsRun home s old (.wait w' activity) :=
  ⟨[], s', taskRun, container, same.calls, fits⟩

theorem turnIsRun_finish {reply : Reply} (taskRun : TaskRun s old none [] s') (same : SameCalls w w')
    (container : w'.container home = s'.container) : w.TurnIsRun home s old (.finish w' reply) :=
  ⟨[], s', taskRun, container, same.calls, trivial⟩

theorem ContainerMatches.still (hh : w.ContainerMatches home s) (part : turn.part? = old)
    (same : w.SameCalls turn.world)
    (container : turn.world.container home = w.container home) (fits : turn.FitsStage s) :
    w.TurnIsRun home s old turn := by
  subst part
  exact ⟨[], s, taskRun_refl s _, container.trans hh.container, same.calls, fits⟩

theorem ContainerMatches.container_put (hh : w.ContainerMatches home s) (c : Container) :
    (w.put home c).container home = c :=
  World.container_put hh.placed c

theorem ContainerMatches.goOn (hh : w.ContainerMatches home s) : w.goOn.ContainerMatches home s :=
  ⟨hh.placed, hh.container, hh.orderly, hh.ended⟩

theorem ContainerMatches.container_wakeAt (hh : w.ContainerMatches home s) (c : Container)
    (f : Activity → Bool) :
    ((w.put home c).wakeAt home f).container home = c :=
  ((keepsContainers_wakeAt _ home f).container home).trans (hh.container_put c)

theorem sameCalls_put_wakeAt (w : World) (home : Home) (c : Container) (f : Activity → Bool) :
    SameCalls w ((w.put home c).wakeAt home f) := by
  have hput : SameCalls w (w.put home c) := ⟨rfl, rfl⟩
  exact hput.trans (sameCalls_wakeAll _ _)

theorem container_stop (placed : home < w.containers.size) :
    (w.stop home).container home = (w.container home).tellToStop :=
  ((keepsContainers_wakeAt _ home _).container home).trans (World.container_put placed _)

theorem sameCalls_stop (w : World) (home : Home) : SameCalls w (w.stop home) :=
  sameCalls_put_wakeAt w home _ _

theorem turnIsRun_sweeperTurn (hh : w.ContainerMatches home s) (t : TaskId) (tick : Option Nat) :
    w.TurnIsRun home s none (w.sweeperTurn t home tick) := by
  have hstay := SameCalls.refl w
  unfold sweeperTurn
  extract_lets c
  generalize w.firstTick? c.config.sweepInterval = first
  cases tick with
  | none =>
    cases first with
    | none => exact hh.still rfl hstay rfl trivial
    | some tick => exact hh.still rfl hstay rfl trivial
  | some tick =>
    dsimp only
    split
    · exact hh.still rfl ⟨rfl, rfl⟩ rfl trivial
    · split
      · exact hh.still rfl hstay rfl trivial
      · split
        · have hc : c = s.container := hh.container
          rw [hc]
          exact turnIsRun_again (taskRun_immediate (e := .sweep w.wall) rfl s none) ⟨rfl, rfl⟩
            (hh.container_put _) trivial
        · exact hh.still rfl ⟨rfl, rfl⟩ rfl trivial

theorem turnIsRun_saverEnd (hh : w.ContainerMatches home s)
    (running : (s.container.savers.get p).running = true) :
    w.TurnIsRun home s (some (.saver p)) (w.saverEnd home p) := by
  unfold saverEnd
  rw [hh.container]
  exact turnIsRun_finish (taskRun_saverStop running) (sameCalls_put_wakeAt w home _ _)
    (hh.container_wakeAt _ _)

theorem turnIsRun_saverTurn (hh : w.ContainerMatches home s) (t : TaskId) (tick : Option Nat)
    (running : (s.container.savers.get p).running = true) :
    w.TurnIsRun home s (some (.saver p)) (w.saverTurn t home p tick) := by
  have hstay := SameCalls.refl w
  unfold saverTurn
  extract_lets c
  generalize w.firstTick? c.config.saveInterval = first
  cases tick with
  | none =>
    cases first with
    | none => exact turnIsRun_saverEnd hh running
    | some tick => exact hh.still rfl hstay rfl trivial
  | some tick =>
    dsimp only
    split
    · exact hh.still rfl ⟨rfl, rfl⟩ rfl trivial
    · split
      · exact turnIsRun_saverEnd hh running
      · rename_i hstopping
        have hc : c = s.container := hh.container
        rw [hc] at hstopping ⊢
        split
        · rename_i hidle
          split
          · exact turnIsRun_again (taskRun_saverTake running hidle) ⟨rfl, rfl⟩ (hh.container_put _)
              trivial
          · exact hh.still rfl ⟨rfl, rfl⟩ rfl trivial
        · split
          · rename_i c' hsend
            have hwriting : s.writing = true := by
              by_contra hw
              exact hstopping (hh.ended.running running (Bool.not_eq_true _ ▸ hw))
            have hon : SameCalls w w.goOn := ⟨rfl, rfl⟩
            exact turnIsRun_again (taskRun_saverSend running hwriting hsend)
              (hon.trans (sameCalls_put_wakeAt w.goOn home c' _)) (hh.goOn.container_wakeAt c' _) trivial
          · exact turnIsRun_wait (taskRun_saverWait running) ⟨rfl, rfl⟩ (hh.container_put _) trivial

/-- A write waits for its call, or it goes on after the answer. -/
theorem turnIsRun_jobTurn (hh : w.ContainerMatches home s) (t : TaskId) (phase : Phase) (job : Job)
    {proceed : Container → Backend.Answer → Progress × Container} {resume : Job → Phase → Activity}
    {finished : World → Turn} {next : Activity}
    (taskRun : ∀ answer,
      TaskRun s old old [(job.request, answer)] (s.put (proceed s.container answer).2))
    (part : ∀ job phase, (resume job phase).part? = old)
    (fits : ∀ job phase, (resume job phase).FitsStage s)
    (fits' : ∀ answer job phase, (resume job phase).FitsStage (s.put (proceed s.container answer).2))
    (hfinished : ∀ w, finished w = .again w next) (nextPart : next.part? = old)
    (nextFits : ∀ answer, next.FitsStage (s.put (proceed s.container answer).2)) :
    w.TurnIsRun home s old (w.jobTurn t home phase job proceed resume finished) := by
  unfold jobTurn
  rcases w.converse_spec t phase job.request with ⟨w₁, phase₁, heq, hsame, -⟩ |
    ⟨w₁, answer, heq, -, hmade, hcontainers⟩
  · have hcontainers := containers_converse w t phase job.request
    rw [heq] at hcontainers ⊢
    exact hh.still (part job phase₁) hsame (container_congr hcontainers home) (fits job phase₁)
  · have hh₁ : w₁.ContainerMatches home s := by
      refine ⟨?_, (container_congr hcontainers home).trans hh.container, hh.orderly, hh.ended⟩
      rw [hcontainers]
      exact hh.placed
    have hput : SameCalls w₁ (w₁.put home (proceed s.container answer).2) := ⟨rfl, rfl⟩
    obtain ⟨time, hcalls⟩ := (hmade.sameCalls (hput.trans (sameCalls_wakeInformed _ home))).calls
    have hwoken : ((w₁.put home (proceed s.container answer).2).wakeInformed home).container home =
        (proceed s.container answer).2 :=
      ((keepsContainers_wakeInformed _ home).container home).trans (hh₁.container_put _)
    have hagain (activity : Activity) (hpart : activity.part? = old)
        (hfits : activity.FitsStage (s.put (proceed s.container answer).2)) : w.TurnIsRun home s old
          (.again ((w₁.put home (proceed s.container answer).2).wakeInformed home) activity) := by
      refine ⟨[{ time, request := job.request, answer }], s.put (proceed s.container answer).2, ?_,
        hwoken, hcalls, hfits⟩
      rw [Turn.part?, hpart]
      exact taskRun answer
    rw [heq]
    dsimp only
    rw [hh₁.container]
    split
    · rename_i job' _
      exact hagain _ (part job' _) (fits' answer job' _)
    · rename_i pause job' _
      exact hagain _ (part job' _) (fits' answer job' _)
    · rw [hfinished]
      exact hagain next nextPart (nextFits answer)

theorem buffer_isEmpty {c : Container} (h : c.writerTake? = none) : c.channel.buffer.isEmpty = true := by
  have hnone : c.channel.receive? = none := Option.map_eq_none_iff.1 h
  unfold Channel.receive? at hnone
  split at hnone
  · cases hnone
  · rename_i hitems
    rw [Queue.isEmpty, hitems]
    rfl

theorem turnIsRun_writerTurn (hh : w.ContainerMatches home s) (t : TaskId) (phase : Phase)
    (writing : s.writing = true) : w.TurnIsRun home s (some .writer) (w.writerTurn t home phase) := by
  unfold writerTurn
  rw [hh.container]
  dsimp only
  split
  · rename_i job hjob
    exact turnIsRun_jobTurn hh t phase job (taskRun_writerAnswer hjob) (fun _ _ => rfl)
      (fun _ _ => trivial) (fun _ _ _ => trivial) (fun _ => rfl) rfl fun _ => trivial
  · rename_i hidle
    split
    · exact hh.still rfl ⟨rfl, rfl⟩ rfl trivial
    · split
      · rename_i granted c' htake
        have hon : SameCalls w w.goOn := ⟨rfl, rfl⟩
        exact turnIsRun_again (taskRun_writerTake writing hidle htake)
          (hon.trans (sameCalls_put_wakeAt w.goOn home c' _)) (hh.goOn.container_wakeAt c' _) trivial
      · rename_i hnone
        split
        · rename_i hlast
          rw [Bool.or_eq_true, Bool.and_eq_true, Bool.not_eq_true'] at hlast
          exact turnIsRun_finish (taskRun_writerEnd writing hidle (buffer_isEmpty hnone) hlast) (.refl w)
            hh.container
        · exact hh.still rfl (.refl w) rfl trivial

theorem turnIsRun_deletionTurn (hh : w.ContainerMatches home s) (t : TaskId) (key : String)
    (awaited : Option Awaited)
    (waits : ∀ ticket deadline, awaited = some { ticket, deadline } → (key, ticket) ∈ s.callers) :
    w.TurnIsRun home s (Activity.part? (.deletion key awaited)) (w.deletionTurn t home key awaited) := by
  have hput (c : Container) : SameCalls w (w.put home c) := ⟨rfl, rfl⟩
  unfold deletionTurn
  cases awaited with
  | none =>
    obtain ⟨s', htaskRun, hcontainer⟩ := taskRun_delete s key
    rw [hh.container]
    dsimp only
    have hafter : (w.put home (s.container.beginDelete key).2).container home = s'.container :=
      (hh.container_put _).trans hcontainer.symm
    split
    all_goals
      rename_i heq
      rw [heq] at htaskRun
    · exact turnIsRun_finish htaskRun (hput _) hafter
    · exact turnIsRun_finish htaskRun (hput _) hafter
    · exact turnIsRun_finish htaskRun (hput _) hafter
    · exact turnIsRun_again htaskRun (hput _) hafter trivial
  | some awaited =>
    have hends := taskRun_deleteEnds (waits awaited.ticket awaited.deadline rfl)
    have hstay := SameCalls.refl w
    dsimp only
    split
    · exact turnIsRun_finish hends hstay hh.container
    · exact turnIsRun_finish hends hstay hh.container
    · exact turnIsRun_finish hends hstay hh.container
    · split
      · exact hh.still rfl hstay rfl trivial
      · split
        · exact turnIsRun_finish hends hstay hh.container
        · exact hh.still rfl ⟨rfl, rfl⟩ rfl trivial

theorem turnIsRun_drainCall {drain : Drain} {job : Job} (hh : w.ContainerMatches home s) (t : TaskId)
    (phase : Phase)
    (fits : Activity.FitsStage s (.shutdown (.draining phase)))
    (hdrain : s.container.drain = some (drain, some job)) :
    w.TurnIsRun home s (some .closer) (w.jobTurn t home phase job
      (fun c answer => c.drainProceed drain job answer) (fun _ phase => .shutdown (.draining phase))
      fun w => .again w (.shutdown (.draining .ready))) := by
  obtain ⟨hwriting, hsavers, hbegun⟩ := fits
  have hstage := hh.orderly.draining_of_drain hdrain
  have hserves : s.stage ≠ .stopped := by
    rw [hstage]
    decide
  have hnext (answer : Backend.Answer) : s.next? (.drainAnswer answer) =
      some (s.put (s.container.drainProceed drain job answer).2) := by
    simp only [System.next?, hdrain]
  have hanswered (answer : Backend.Answer) : Moment.call? ⟨s, .drainAnswer answer⟩ =
      some (job.request, answer) := by
    apply Moment.call?_of_answered
    simp only [Moment.answered?, hdrain, hh.orderly.job_eq_none hdrain]
  have hrun (answer : Backend.Answer) : ∃ h,
      Run s h (s.put (s.container.drainProceed drain job answer).2) ∧
        DistinctCount.calls h = [(job.request, answer)] := by
    refine ⟨_, Run.refl.step (hnext answer), ?_⟩
    rw [calls_concat, hanswered]
    rfl
  have hfits (answer : Backend.Answer) (phase : Phase) : Activity.FitsStage
      (s.put (s.container.drainProceed drain job answer).2) (.shutdown (.draining phase)) :=
    ⟨hwriting, hsavers, fun hnone => absurd hnone (Option.some_ne_none _)⟩
  exact turnIsRun_jobTurn hh t phase job
    (fun answer => taskRun_closer (hrun answer) rfl rfl rfl rfl hserves hserves)
    (fun _ _ => rfl) (fun _ _ => ⟨hwriting, hsavers, hbegun⟩)
    (fun answer _ phase => hfits answer phase) (fun _ => rfl) rfl fun answer => hfits answer .ready

theorem turnIsRun_drainTurn (hh : w.ContainerMatches home s) (t : TaskId) (phase : Phase)
    (closed : s.container.closed = true)
    (fits : Activity.FitsStage s (.shutdown (.draining phase))) :
    w.TurnIsRun home s (some .closer) (w.drainTurn t home phase (fun phase => .shutdown (.draining phase))
      fun w _ => .again w (.shutdown (.stopping .ready))) := by
  have hput (c : Container) : SameCalls w (w.put home c) := ⟨rfl, rfl⟩
  unfold drainTurn
  rw [hh.container]
  dsimp only
  split
  · rename_i hdrain
    exact turnIsRun_drainCall hh t phase fits hdrain
  · rename_i drain hdrain
    have hstage := hh.orderly.draining_of_drain hdrain
    have hserves : s.stage ≠ .stopped := by
      rw [hstage]
      decide
    obtain ⟨hwriting, hsavers, -⟩ := fits
    obtain ⟨queues, onward, -, hadvance⟩ | hadvance := s.container.drainAdvance_frame drain
    · have hnext : s.next? .drainAdvance =
          some (s.put { s.container with queues, drain := some onward }) := by
        simp only [System.next?, hdrain, hadvance]
      rw [hadvance]
      exact turnIsRun_again (taskRun_closer (run_next hnext rfl) rfl rfl rfl rfl hserves hserves) (hput _)
        (hh.container_put _) ⟨hwriting, hsavers, fun hnone => absurd hnone (Option.some_ne_none _)⟩
    · have hnext : s.next? .drainAdvance =
          some { s with container := { s.container with drain := none }, stage := .drained } := by
        simp only [System.next?, hdrain, hadvance]
      have hdrained : Stage.drained ≠ .stopped := by decide
      rw [hadvance]
      exact turnIsRun_again (taskRun_closer (run_next hnext rfl) rfl rfl rfl rfl hserves hdrained) (hput _)
        (hh.container_put _) rfl
  · rename_i hnone
    obtain ⟨hwriting, hsavers, hbegun⟩ := fits
    have hserving := hbegun hnone
    have hnext : s.next? .drainBegin =
        some { s with container := s.container.beginDrain, stage := .draining } :=
      if_pos ⟨hserving, closed, hwriting, hsavers⟩
    have hserves : s.stage ≠ .stopped := by
      rw [hserving]
      decide
    have hdraining : Stage.draining ≠ .stopped := by decide
    exact turnIsRun_again (taskRun_closer (run_next hnext rfl) rfl rfl rfl rfl hserves hdraining) (hput _)
      (hh.container_put _) ⟨hwriting, hsavers, fun hnone => absurd hnone (Option.some_ne_none _)⟩

/--
The task that has closed the container waits for the others, drains what is left and stops the backend.
-/
theorem turnIsRun_shutdownTurn (hh : w.ContainerMatches home s) (t : TaskId) (stage : Closing)
    (closed : Activity.part? (.shutdown stage) = some .closer → s.container.closed = true)
    (fits : Activity.FitsStage s (.shutdown stage))
    (quiet : w.isQuiet home = true → s.writing = false ∧ s.container.saversRunning = false) :
    w.TurnIsRun home s (Activity.part? (.shutdown stage)) (w.shutdownTurn t home stage) := by
  have hstay := SameCalls.refl w
  unfold shutdownTurn
  rw [hh.container]
  cases stage with
  | begin =>
    dsimp only
    split
    · exact hh.still rfl hstay rfl trivial
    · rename_i hopen
      obtain ⟨htaskRun, hserving⟩ := taskRun_close hh.orderly (Bool.not_eq_true _ ▸ hopen)
      have hclosing : SameCalls w (w.put home s.container.close) := ⟨rfl, rfl⟩
      have hplaced : home < (w.put home s.container.close).containers.size :=
        (turnContinues_put w home s.container.close).size.symm ▸ hh.placed
      refine turnIsRun_again htaskRun (hclosing.trans (sameCalls_stop _ home)) ?_ hserving
      rw [container_stop hplaced, hh.container_put]
      rfl
  | joining =>
    dsimp only
    split
    · exact hh.still rfl hstay rfl fits
    · rename_i hquiet
      obtain ⟨hwriting, hsavers⟩ := quiet (by simpa using hquiet)
      rw [if_pos hh.orderly.persistent]
      exact hh.still rfl hstay rfl ⟨hwriting, hsavers, fun _ => fits⟩
  | draining phase => exact turnIsRun_drainTurn hh t phase (closed rfl) fits
  | stopping phase =>
    dsimp only
    rcases w.converse_spec t phase .flushAndStop with ⟨w₁, phase₁, heq, hsame, -⟩ |
      ⟨w₁, answer, heq, -, hmade, hcontainers⟩
    · have hcontainers := containers_converse w t phase .flushAndStop
      rw [heq] at hcontainers ⊢
      exact hh.still rfl hsame (container_congr hcontainers home) fits
    · rw [heq]
      have hcontainer := (container_congr hcontainers home).trans hh.container
      obtain ⟨time, hcalls⟩ := hmade.calls
      have hstops := taskRun_backendStop (closed rfl) fits answer
      have hfinish (reply : Reply) : w.TurnIsRun home s (some .closer) (.finish w₁ reply) :=
        ⟨[{ time, request := .flushAndStop, answer }], _, hstops, hcontainer, hcalls, trivial⟩
      cases answer with
      | ok => exact hfinish _
      | error e => exact hfinish _

theorem turnIsRun_turn {task : Task} (hh : w.ContainerMatches task.home s) (t : TaskId)
    (holds : ∀ part, task.activity.part? = some part → 0 < s.tally part)
    (fits : task.activity.FitsStage s)
    (quiet : w.isQuiet task.home = true → s.writing = false ∧ s.container.saversRunning = false) :
    w.TurnIsRun task.home s task.activity.part? (w.turn t task) := by
  have hstay := SameCalls.refl w
  unfold turn
  cases hactivity : task.activity with
  | sweeper tick => exact turnIsRun_sweeperTurn hh t tick
  | saver p tick =>
    have hpos := holds (.saver p) (by rw [hactivity]; rfl)
    exact turnIsRun_saverTurn hh t tick (Bool.toNat_eq_one.1 (Nat.le_antisymm (Bool.toNat_le _) hpos))
  | writer phase =>
    have hpos := holds .writer (by rw [hactivity]; rfl)
    exact turnIsRun_writerTurn hh t phase (Bool.toNat_eq_one.1 (Nat.le_antisymm (Bool.toNat_le _) hpos))
  | deletion key awaited =>
    refine turnIsRun_deletionTurn hh t key awaited fun ticket deadline heq => ?_
    exact List.count_pos_iff.1 (holds (.caller key ticket) (by rw [hactivity, heq]; rfl))
  | shutdown stage =>
    rw [hactivity] at fits
    refine turnIsRun_shutdownTurn hh t stage (fun hpart => ?_) fits quiet
    have hpos := holds .closer (by rw [hactivity, hpart])
    by_contra hopen
    exact Nat.lt_irrefl 0 (Nat.lt_of_lt_of_eq hpos (if_neg fun h => hopen h.1))
  | sleeping due =>
    dsimp only
    split
    · exact hh.still rfl hstay rfl trivial
    · exact hh.still rfl ⟨rfl, rfl⟩ rfl trivial
  | joining other =>
    dsimp only
    split
    · exact hh.still rfl hstay rfl trivial
    · exact hh.still rfl hstay rfl trivial
  | _ =>
    rw [hactivity] at fits
    exact fits.elim

end World

end DistinctCount.Schedule
