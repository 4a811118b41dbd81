import DistinctCount.Proofs.Schedule.Retries

namespace DistinctCount.Schedule

namespace World

variable {w w' w'' : World} {t : TaskId} {home : Home} {phase : Phase} {request : Request}

def turnsOf (w : World) (t : TaskId) : Nat :=
  w.running.toList.count t + w.ready.items.count t + w.gaveWay.count t

def OneTurnEach (w : World) : Prop :=
  ∀ t, w.turnsOf t ≤ if w.isFinished t then 0 else 1

theorem isFinished_congr (tasks : w'.tasks = w.tasks) (t : TaskId) :
    w'.isFinished t = w.isFinished t := by
  rw [isFinished, tasks, isFinished]

theorem OneTurnEach.fewer (hl : w.OneTurnEach) (tasks : w'.tasks = w.tasks)
    (fewer : ∀ t, w'.turnsOf t ≤ w.turnsOf t) : w'.OneTurnEach := by
  intro t
  rw [isFinished_congr tasks]
  exact Nat.le_trans (fewer t) (hl t)

theorem OneTurnEach.turnsOf_of_running (hl : w.OneTurnEach) (running : w.running = some t) :
    w.isFinished t = false ∧ w.ready.items.count t = 0 ∧ w.gaveWay.count t = 0 := by
  have hturns := hl t
  rw [turnsOf, running, Option.toList_some, List.count_singleton_self] at hturns
  cases hfinished : w.isFinished t with
  | true =>
    rw [hfinished, if_pos rfl] at hturns
    omega
  | false =>
    rw [hfinished, if_neg nofun] at hturns
    exact ⟨rfl, by omega, by omega⟩

/-- All calls are on record, and the store has given their answers. -/
def CallsServed (w w' : World) : Prop :=
  ∃ new, w'.calls = new ++ w.calls ∧ w.link.backend.Serves (made new) w'.link.backend

theorem made_append (new old : List Call) : made (new ++ old) = made old ++ made new := by
  rw [made, List.reverse_append, List.map_append, made, made]

theorem SameCalls.callsServed (h : SameCalls w w') : CallsServed w w' :=
  ⟨[], h.calls, by rw [h.link]; exact .refl⟩

theorem CallsServed.trans (h : CallsServed w w') (h' : CallsServed w' w'') : CallsServed w w'' := by
  obtain ⟨new, hcalls, hserves⟩ := h
  obtain ⟨new', hcalls', hserves'⟩ := h'
  refine ⟨new' ++ new, ?_, ?_⟩
  · rw [hcalls', hcalls, List.append_assoc]
  · rw [made_append]
    exact hserves.trans hserves'

theorem callsServed_perform (w : World) (request : Request) : CallsServed w (w.perform request).1 :=
  ⟨[_], rfl, Backend.Serves.refl.call w.link.backend.failNext request⟩

structure KeepsContainers (w w' : World) : Prop where
  tasks : w'.tasks = w.tasks
  containers : w'.containers = w.containers
  callsServed : CallsServed w w'
  running : w'.running = w.running
  oneTurnEach : w.OneTurnEach → w'.OneTurnEach

/-- What a turn leaves alone: the tasks, and the containers of other homes. -/
structure ChangesOnlyAt (home : Home) (w w' : World) : Prop where
  tasks : w'.tasks = w.tasks
  size : w'.containers.size = w.containers.size
  elsewhere : ∀ other, other ≠ home → w'.container other = w.container other
  callsServed : CallsServed w w'

structure TurnContinues (home : Home) (w w' : World) : Prop extends ChangesOnlyAt home w w' where
  running : w'.running = w.running
  oneTurnEach : w.OneTurnEach → w'.OneTurnEach

/-- The turn of a task of a home is over, and the task is to have another one. -/
structure TurnYields (home : Home) (t : TaskId) (w w' : World) :
    Prop extends ChangesOnlyAt home w w' where
  oneTurnEach : w.running = some t → w.OneTurnEach → OneTurnEach { w' with running := none }

theorem KeepsContainers.refl (w : World) : KeepsContainers w w :=
  ⟨rfl, rfl, (SameCalls.refl w).callsServed, rfl, id⟩

theorem KeepsContainers.trans (h : KeepsContainers w w') (h' : KeepsContainers w' w'') :
    KeepsContainers w w'' where
  tasks := h'.tasks.trans h.tasks
  containers := h'.containers.trans h.containers
  callsServed := h.callsServed.trans h'.callsServed
  running := h'.running.trans h.running
  oneTurnEach := h'.oneTurnEach ∘ h.oneTurnEach

theorem KeepsContainers.container (h : KeepsContainers w w') (home : Home) :
    w'.container home = w.container home :=
  container_congr h.containers home

theorem KeepsContainers.turnContinues (h : KeepsContainers w w') (home : Home) :
    TurnContinues home w w' where
  tasks := h.tasks
  size := by rw [h.containers]
  elsewhere other _ := h.container other
  callsServed := h.callsServed
  running := h.running
  oneTurnEach := h.oneTurnEach

theorem ChangesOnlyAt.trans (h : ChangesOnlyAt home w w') (h' : ChangesOnlyAt home w' w'') :
    ChangesOnlyAt home w w'' where
  tasks := h'.tasks.trans h.tasks
  size := h'.size.trans h.size
  elsewhere other hne := (h'.elsewhere other hne).trans (h.elsewhere other hne)
  callsServed := h.callsServed.trans h'.callsServed

theorem TurnContinues.refl (w : World) : TurnContinues home w w :=
  (KeepsContainers.refl w).turnContinues home

theorem TurnContinues.trans (h : TurnContinues home w w') (h' : TurnContinues home w' w'') :
    TurnContinues home w w'' where
  toChangesOnlyAt := h.toChangesOnlyAt.trans h'.toChangesOnlyAt
  running := h'.running.trans h.running
  oneTurnEach := h'.oneTurnEach ∘ h.oneTurnEach

theorem TurnContinues.trans_yields (h : TurnContinues home w w') (h' : TurnYields home t w' w'') :
    TurnYields home t w w'' where
  toChangesOnlyAt := h.toChangesOnlyAt.trans h'.toChangesOnlyAt
  oneTurnEach running hl := h'.oneTurnEach (h.running.trans running) (h.oneTurnEach hl)

/-- A task that goes on may as well wait to be woken. -/
theorem TurnContinues.turnYields (h : TurnContinues home w w') : TurnYields home t w w' where
  toChangesOnlyAt := h.toChangesOnlyAt
  oneTurnEach _ hl := by
    refine (h.oneTurnEach hl).fewer ?_ fun u => ?_
    · rfl
    · simp only [turnsOf, Option.toList_none, List.count_nil]
      omega

theorem turnContinues_put (w : World) (home : Home) (c : Container) :
    TurnContinues home w (w.put home c) where
  tasks := rfl
  size := Array.size_setIfInBounds
  elsewhere other hne := by
    simp only [container, put, Array.getD_eq_getD_getElem?, Array.getElem?_setIfInBounds_ne hne.symm]
  callsServed := SameCalls.callsServed ⟨rfl, rfl⟩
  running := rfl
  oneTurnEach := id

theorem keepsContainers_goOn (w : World) : KeepsContainers w w.goOn :=
  ⟨rfl, rfl, SameCalls.callsServed ⟨rfl, rfl⟩, rfl, id⟩

theorem keepsContainers_sleepUntil (w : World) (t : TaskId) (due : Nat) :
    KeepsContainers w (w.sleepUntil t due) :=
  ⟨rfl, rfl, SameCalls.callsServed ⟨rfl, rfl⟩, rfl, id⟩

theorem keepsContainers_perform (w : World) (request : Request) :
    KeepsContainers w (w.perform request).1 :=
  ⟨rfl, rfl, callsServed_perform w request, rfl, id⟩

/-- A task that gives way has one turn to come, which takes the place of the one it has. -/
theorem turnYields_giveWay (w : World) (t : TaskId) (home : Home) :
    TurnYields home t w (w.giveWay t) where
  tasks := rfl
  size := rfl
  elsewhere _ _ := rfl
  callsServed := SameCalls.callsServed ⟨rfl, rfl⟩
  oneTurnEach running hl := by
    refine hl.fewer ?_ fun u => ?_
    · rfl
    · simp only [turnsOf, giveWay, running, Option.toList_none, Option.toList_some, List.count_nil,
        List.count_cons]
      omega

theorem keepsContainers_wake (w : World) (t : TaskId) : KeepsContainers w (w.wake t) := by
  unfold wake
  split
  · exact .refl w
  · rename_i hidle
    simp only [Bool.or_eq_true, decide_eq_true_eq, List.contains_iff_mem, not_or,
      Bool.not_eq_true] at hidle
    obtain ⟨⟨⟨hrunning, hready⟩, hgave⟩, hunfinished⟩ := hidle
    refine ⟨rfl, rfl, SameCalls.callsServed ⟨rfl, rfl⟩, rfl, ?_⟩
    intro hl u
    have hu := hl u
    have hfinished : isFinished { w with ready := w.ready.push t } u = w.isFinished u := rfl
    rw [hfinished]
    by_cases hut : u = t
    · subst hut
      have hnone : w.running.toList.count u = 0 := by
        rw [List.count_eq_zero, Option.mem_toList]
        exact hrunning
      simp only [turnsOf, Queue.push, List.count_append, List.count_singleton_self, hnone,
        List.count_eq_zero.2 hready, List.count_eq_zero.2 hgave, hunfinished, Bool.false_eq_true,
        if_false, Nat.le_refl]
    · simp only [turnsOf, Queue.push, List.count_append, List.count_singleton, beq_iff_eq,
        if_neg (Ne.symm hut), Nat.add_zero]
      exact hu

theorem keepsContainers_wakeAll (w : World) (p : Task → Bool) : KeepsContainers w (w.wakeAll p) := by
  apply List.foldlRecOn (motive := KeepsContainers w) _ _ (.refl w)
  intro w' hkeeps t _
  split
  · exact hkeeps.trans (keepsContainers_wake w' t)
  · exact hkeeps

theorem keepsContainers_foldl_wake (l : List TaskId) (w : World) :
    KeepsContainers w (l.foldl (fun w t => w.wake t) w) := by
  apply List.foldlRecOn (motive := KeepsContainers w) _ _ (.refl w)
  intro w' hkeeps t _
  exact hkeeps.trans (keepsContainers_wake w' t)

theorem sameCalls_foldl_wake (l : List TaskId) (w : World) :
    SameCalls w (l.foldl (fun w t => w.wake t) w) := by
  apply List.foldlRecOn (motive := SameCalls w) _ _ (.refl w)
  intro w' hsame t _
  exact hsame.trans (sameCalls_wake w' t)

theorem keepsContainers_wakeAt (w : World) (home : Home) (p : Activity → Bool) :
    KeepsContainers w (w.wakeAt home p) :=
  keepsContainers_wakeAll w _

theorem keepsContainers_wakeInformed (w : World) (home : Home) :
    KeepsContainers w (w.wakeInformed home) :=
  keepsContainers_wakeAll w _

theorem turnContinues_stop (w : World) (home : Home) : TurnContinues home w (w.stop home) :=
  (turnContinues_put w home _).trans ((keepsContainers_wakeAt _ home _).turnContinues home)

theorem turnContinues_release (w : World) (home : Home) : TurnContinues home w (w.release home) := by
  unfold release
  dsimp only
  split
  · exact .refl w
  · exact turnContinues_stop w home

theorem keepsContainers_of_sleep {due : Nat} (h : w.sleep t due = .ok w') : KeepsContainers w w' := by
  unfold sleep at h
  split at h
  · cases h
  · split at h
    · obtain rfl := Except.ok.inj h
      exact keepsContainers_goOn w
    · cases h

theorem turnYields_of_sleep {due : Nat} (h : w.sleep t due = .error w') : TurnYields home t w w' := by
  unfold sleep at h
  split at h
  · obtain rfl := Except.error.inj h
    exact turnYields_giveWay w t home
  · split at h
    · cases h
    · obtain rfl := Except.error.inj h
      exact ((keepsContainers_sleepUntil w t due).turnContinues home).turnYields

def YieldsOrAnswers (home : Home) (t : TaskId) (w : World) : World × Except Phase Backend.Answer → Prop
  | (w', .error _) => TurnYields home t w w'
  | (w', .ok _) => KeepsContainers w w'

theorem yieldsOrAnswers_arrive (w : World) (t : TaskId) (home : Home) (due : Nat) (request : Request) :
    YieldsOrAnswers home t w (w.arrive t due request) := by
  unfold arrive
  split
  · rename_i heq
    exact turnYields_of_sleep heq
  · rename_i w' heq
    exact (keepsContainers_of_sleep heq).trans (keepsContainers_perform w' request)

theorem yieldsOrAnswers_dispatch (w : World) (t : TaskId) (home : Home) (request : Request) :
    YieldsOrAnswers home t w (w.dispatch t request) := by
  unfold dispatch
  split
  · exact keepsContainers_perform w request
  · exact yieldsOrAnswers_arrive w t home _ request

theorem yieldsOrAnswers_converse (w : World) (t : TaskId) (home : Home) (phase : Phase)
    (request : Request) :
    YieldsOrAnswers home t w (w.converse t phase request) := by
  unfold converse
  cases phase with
  | ready => exact yieldsOrAnswers_dispatch w t home request
  | calling due => exact yieldsOrAnswers_arrive w t home due request
  | resting due =>
    dsimp only
    split
    · rename_i heq
      exact turnYields_of_sleep heq
    · rename_i w' heq
      have hslept := keepsContainers_of_sleep heq
      have hresult := yieldsOrAnswers_dispatch w' t home request
      generalize w'.dispatch t request = result at hresult
      match result with
      | (_, .error _) => exact (hslept.turnContinues home).trans_yields hresult
      | (_, .ok _) => exact hslept.trans hresult

end World

def Turn.world : Turn → World
  | .again w _ => w
  | .wait w _ => w
  | .finish w _ => w

def Turn.LeavesOthers (w : World) (t : TaskId) (home : Home) : Turn → Prop
  | .again w' _ => w.TurnContinues home w'
  | .wait w' _ => w.TurnYields home t w'
  | .finish w' _ => w.TurnContinues home w'

namespace World

variable {w w' : World}

theorem leavesOthers_again {t : TaskId} {home : Home} {activity : Activity}
    (h : TurnContinues home w w') :
    (Turn.again w' activity).LeavesOthers w t home :=
  h

theorem leavesOthers_finish {t : TaskId} {home : Home} {reply : Reply} (h : TurnContinues home w w') :
    (Turn.finish w' reply).LeavesOthers w t home :=
  h

theorem leavesOthers_wait {t : TaskId} {home : Home} {activity : Activity} (h : TurnYields home t w w') :
    (Turn.wait w' activity).LeavesOthers w t home :=
  h

theorem TurnContinues.turn {t : TaskId} {home : Home} {turn : Turn} (h : TurnContinues home w w')
    (ht : turn.LeavesOthers w' t home) : turn.LeavesOthers w t home := by
  cases turn with
  | again => exact h.trans ht
  | wait => exact h.trans_yields ht
  | finish => exact h.trans ht

theorem leavesOthers_sweeperTurn (w : World) (t : TaskId) (home : Home) (tick : Option Nat) :
    (w.sweeperTurn t home tick).LeavesOthers w t home := by
  unfold sweeperTurn
  extract_lets c
  -- The first tick is a comparison with a huge number, which nothing here should evaluate.
  generalize w.firstTick? c.config.sweepInterval = first
  cases tick with
  | none =>
    cases first with
    | none => exact leavesOthers_finish (TurnContinues.refl w)
    | some tick => exact leavesOthers_again (TurnContinues.refl w)
  | some tick =>
    dsimp only
    split
    · exact leavesOthers_wait (turnYields_giveWay w t home)
    · split
      · exact leavesOthers_finish (TurnContinues.refl w)
      · split
        · apply leavesOthers_again
          exact ((keepsContainers_goOn w).turnContinues home).trans (turnContinues_put _ home _)
        · exact leavesOthers_wait ((keepsContainers_sleepUntil w t _).turnContinues home).turnYields

theorem leavesOthers_saverEnd (w : World) (t : TaskId) (home : Home) (p : Partition) :
    (w.saverEnd home p).LeavesOthers w t home := by
  apply leavesOthers_finish
  exact (turnContinues_put w home _).trans ((keepsContainers_wakeAt _ home _).turnContinues home)

theorem leavesOthers_saverTurn (w : World) (t : TaskId) (home : Home) (p : Partition)
    (tick : Option Nat) :
    (w.saverTurn t home p tick).LeavesOthers w t home := by
  unfold saverTurn
  extract_lets c
  generalize w.firstTick? c.config.saveInterval = first
  cases tick with
  | none =>
    cases first with
    | none => exact leavesOthers_saverEnd w t home p
    | some tick => exact leavesOthers_again (TurnContinues.refl w)
  | some tick =>
    have hon := (keepsContainers_goOn w).turnContinues home
    dsimp only
    split
    · exact leavesOthers_wait (turnYields_giveWay w t home)
    · split
      · exact leavesOthers_saverEnd w t home p
      · split
        · split
          · apply leavesOthers_again
            exact hon.trans (turnContinues_put _ home _)
          · exact leavesOthers_wait ((keepsContainers_sleepUntil w t _).turnContinues home).turnYields
        · split
          · apply leavesOthers_again
            exact (hon.trans (turnContinues_put _ home _)).trans
              ((keepsContainers_wakeAt _ home _).turnContinues home)
          · apply leavesOthers_wait
            exact (turnContinues_put w home _).turnYields

theorem leavesOthers_jobTurn (w : World) (t : TaskId) (home : Home) (phase : Phase) (job : Job)
    (proceed : Container → Backend.Answer → Progress × Container) (resume : Job → Phase → Activity)
    {finished : World → Turn} (hfinished : ∀ w, (finished w).LeavesOthers w t home) :
    (w.jobTurn t home phase job proceed resume finished).LeavesOthers w t home := by
  have hresult := yieldsOrAnswers_converse w t home phase job.request
  unfold jobTurn
  split
  · rename_i heq
    rw [heq] at hresult
    exact leavesOthers_wait hresult
  · rename_i w₁ answer heq
    rw [heq] at hresult
    have hput := ((KeepsContainers.turnContinues hresult home).trans
      (turnContinues_put w₁ home (proceed (w₁.container home) answer).2)).trans
        ((keepsContainers_wakeInformed _ home).turnContinues home)
    dsimp only
    split
    · exact leavesOthers_again hput
    · exact leavesOthers_again hput
    · exact hput.turn (hfinished _)

theorem leavesOthers_writerTurn (w : World) (t : TaskId) (home : Home) (phase : Phase) :
    (w.writerTurn t home phase).LeavesOthers w t home := by
  unfold writerTurn
  dsimp only
  split
  · exact leavesOthers_jobTurn w t home phase _ _ _ fun w => leavesOthers_again (TurnContinues.refl w)
  · split
    · exact leavesOthers_wait (turnYields_giveWay w t home)
    · split
      · apply leavesOthers_again
        exact (((keepsContainers_goOn w).turnContinues home).trans (turnContinues_put _ home _)).trans
          ((keepsContainers_wakeAt _ home _).turnContinues home)
      · split
        · exact leavesOthers_finish (TurnContinues.refl w)
        · exact leavesOthers_wait (TurnContinues.refl w).turnYields

theorem leavesOthers_deletionTurn (w : World) (t : TaskId) (home : Home) (key : String)
    (awaited : Option Awaited) : (w.deletionTurn t home key awaited).LeavesOthers w t home := by
  unfold deletionTurn
  cases awaited with
  | none =>
    have hput := turnContinues_put w home ((w.container home).beginDelete key).2
    dsimp only
    split
    · exact leavesOthers_finish hput
    · exact leavesOthers_finish hput
    · exact leavesOthers_finish hput
    · exact leavesOthers_again hput
  | some awaited =>
    dsimp only
    split
    · exact leavesOthers_finish (TurnContinues.refl w)
    · exact leavesOthers_finish (TurnContinues.refl w)
    · exact leavesOthers_finish (TurnContinues.refl w)
    · split
      · exact leavesOthers_wait (TurnContinues.refl w).turnYields
      · split
        · exact leavesOthers_finish (TurnContinues.refl w)
        · exact leavesOthers_wait ((keepsContainers_sleepUntil w t _).turnContinues home).turnYields

theorem leavesOthers_drainTurn (w : World) (t : TaskId) (home : Home) (phase : Phase)
    (resume : Phase → Activity) {finished : World → Nat → Turn}
    (hfinished : ∀ w written, (finished w written).LeavesOthers w t home) :
    (w.drainTurn t home phase resume finished).LeavesOthers w t home := by
  unfold drainTurn
  dsimp only
  split
  · exact leavesOthers_jobTurn w t home phase _ _ _ fun w => leavesOthers_again (TurnContinues.refl w)
  · split
    · exact leavesOthers_again (turnContinues_put w home _)
    · exact (turnContinues_put w home _).turn (hfinished _ _)
  · exact leavesOthers_again (turnContinues_put w home _)

theorem leavesOthers_shutdownTurn (w : World) (t : TaskId) (home : Home) (stage : Closing) :
    (w.shutdownTurn t home stage).LeavesOthers w t home := by
  unfold shutdownTurn
  cases stage with
  | begin =>
    dsimp only
    split
    · exact leavesOthers_finish (TurnContinues.refl w)
    · apply leavesOthers_again
      exact (turnContinues_put w home _).trans (turnContinues_stop _ home)
  | joining =>
    dsimp only
    split
    · exact leavesOthers_wait (TurnContinues.refl w).turnYields
    · split
      · exact leavesOthers_again (TurnContinues.refl w)
      · exact leavesOthers_finish (TurnContinues.refl w)
  | draining phase =>
    exact leavesOthers_drainTurn w t home phase _ fun w _ => leavesOthers_again (TurnContinues.refl w)
  | stopping phase =>
    have hresult := yieldsOrAnswers_converse w t home phase .flushAndStop
    dsimp only
    split
    all_goals
      rename_i heq
      rw [heq] at hresult
    · exact leavesOthers_wait hresult
    · exact leavesOthers_finish (KeepsContainers.turnContinues hresult home)
    · exact leavesOthers_finish (KeepsContainers.turnContinues hresult home)

theorem leavesOthers_openingTurn (w : World) (t : TaskId) (home : Home) (state : Container.Opening)
    (phase : Phase) : (w.openingTurn t home state phase).LeavesOthers w t home := by
  unfold openingTurn
  split
  · exact leavesOthers_finish (turnContinues_put w home _)
  · rename_i request _
    have hresult := yieldsOrAnswers_converse w t home phase request
    split
    · rename_i heq
      rw [heq] at hresult
      exact leavesOthers_wait hresult
    · rename_i heq
      rw [heq] at hresult
      split
      · exact leavesOthers_again (KeepsContainers.turnContinues hresult home)
      · exact leavesOthers_again (KeepsContainers.turnContinues hresult home)

theorem leavesOthers_erasingTurn (w : World) (t : TaskId) (home : Home) (key : String) (attempt : UInt32)
    (phase : Phase) : (w.erasingTurn t home key attempt phase).LeavesOthers w t home := by
  have hresult := yieldsOrAnswers_converse w t home phase (.delete key)
  unfold erasingTurn
  split
  · rename_i heq
    rw [heq] at hresult
    exact leavesOthers_wait hresult
  · rename_i heq
    rw [heq] at hresult
    split
    · exact leavesOthers_again (KeepsContainers.turnContinues hresult home)
    · exact leavesOthers_finish (KeepsContainers.turnContinues hresult home)
    · exact leavesOthers_finish (KeepsContainers.turnContinues hresult home)

theorem leavesOthers_turn (w : World) (t : TaskId) (task : Task) :
    (w.turn t task).LeavesOthers w t task.home := by
  unfold turn
  dsimp only
  cases task.activity with
  | sweeper tick => exact leavesOthers_sweeperTurn w t task.home tick
  | saver p tick => exact leavesOthers_saverTurn w t task.home p tick
  | writer phase => exact leavesOthers_writerTurn w t task.home phase
  | deletion key awaited => exact leavesOthers_deletionTurn w t task.home key awaited
  | shutdown stage => exact leavesOthers_shutdownTurn w t task.home stage
  | opening state phase => exact leavesOthers_openingTurn w t task.home state phase
  | writing job phase =>
    exact leavesOthers_jobTurn w t task.home phase job _ _ fun w =>
      leavesOthers_finish (TurnContinues.refl w)
  | draining phase =>
    exact leavesOthers_drainTurn w t task.home phase _ fun w _ =>
      leavesOthers_finish (TurnContinues.refl w)
  | erasing key attempt phase => exact leavesOthers_erasingTurn w t task.home key attempt phase
  | adding due id hash =>
    dsimp only
    split
    · exact leavesOthers_finish (turnContinues_put w task.home _)
    · exact leavesOthers_wait ((keepsContainers_sleepUntil w t _).turnContinues task.home).turnYields
  | sleeping due =>
    dsimp only
    split
    · exact leavesOthers_finish (TurnContinues.refl w)
    · exact leavesOthers_wait ((keepsContainers_sleepUntil w t _).turnContinues task.home).turnYields
  | joining other =>
    dsimp only
    split
    · exact leavesOthers_finish (TurnContinues.refl w)
    · exact leavesOthers_wait (TurnContinues.refl w).turnYields

theorem changesOnlyAt_turn (w : World) (t : TaskId) (task : Task) :
    w.ChangesOnlyAt task.home (w.turn t task).world := by
  have hleaves := leavesOthers_turn w t task
  generalize w.turn t task = turn at hleaves
  cases turn with
  | again w' => exact TurnContinues.toChangesOnlyAt hleaves
  | wait w' => exact TurnYields.toChangesOnlyAt hleaves
  | finish w' => exact TurnContinues.toChangesOnlyAt hleaves

end World

end DistinctCount.Schedule
