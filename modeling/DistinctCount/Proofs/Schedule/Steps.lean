import DistinctCount.Proofs.Schedule.Turns

namespace DistinctCount.Schedule

def Turn.task (task : Task) : Turn → Task
  | .again _ activity => { task with activity }
  | .wait _ activity => { task with activity }
  | .finish _ reply => { task with reply := some reply }

theorem home_task (turn : Turn) (task : Task) : (turn.task task).home = task.home := by
  cases turn <;> rfl

namespace World

variable {w w' w'' : World}

def after (t : TaskId) (task : Task) : Turn → World
  | .again w activity => { w with tasks := w.tasks.setIfInBounds t { task with activity } }
  | .wait w activity =>
    { w with tasks := w.tasks.setIfInBounds t { task with activity }, running := none }
  | .finish w reply => w.finish t task reply

theorem isFinished_set {t u : TaskId} {task : Task} (found : w.tasks[t]? = some task)
    (activity : Activity) (reply : Option Reply) :
    isFinished { w with tasks := w.tasks.setIfInBounds t { task with activity, reply } } u =
      if u = t then reply.isSome else w.isFinished u := by
  unfold isFinished
  rw [Array.getElem?_setIfInBounds]
  by_cases hut : u = t
  · subst hut
    have hlt : u < w.tasks.size := (Array.getElem?_eq_some_iff.1 found).1
    rw [if_pos rfl, if_pos hlt, if_pos rfl, Option.all_some]
  · rw [if_neg (Ne.symm hut), if_neg hut]

theorem oneTurnEach_set {t : TaskId} {task : Task} (hl : w.OneTurnEach) (found : w.tasks[t]? = some task)
    (activity : Activity) :
    OneTurnEach { w with tasks := w.tasks.setIfInBounds t { task with activity } } := by
  intro u
  have hu := hl u
  rw [isFinished_set found activity task.reply]
  split
  · rename_i hut
    subst hut
    have hsame : w.isFinished u = task.reply.isSome := by rw [isFinished, found, Option.all_some]
    rwa [hsame] at hu
  · exact hu

theorem oneTurnEach_finish {t : TaskId} {task : Task} (hl : w.OneTurnEach) (running : w.running = some t)
    (found : w.tasks[t]? = some task) (reply : Reply) : (w.finish t task reply).OneTurnEach := by
  have hturns := hl.turnsOf_of_running running
  have hended : OneTurnEach { w with
      tasks := w.tasks.setIfInBounds t { task with reply := some reply }
      clock := w.clock.disarm t
      running := none
      script := if w.script = some t then none else w.script } := by
    intro u
    have hu := hl u
    have hfinished := isFinished_set (u := u) found task.activity (some reply)
    have hsame : turnsOf { w with
        tasks := w.tasks.setIfInBounds t { task with reply := some reply }
        clock := w.clock.disarm t
        running := none
        script := if w.script = some t then none else w.script } u =
          w.ready.items.count u + w.gaveWay.count u := by
      simp only [turnsOf, Option.toList_none, List.count_nil, Nat.zero_add]
    rw [hsame]
    refine Nat.le_trans ?_ (Nat.le_of_eq (congrArg (if · then 0 else 1) hfinished.symm))
    by_cases hut : u = t
    · subst hut
      rw [hturns.2.1, hturns.2.2]
      exact Nat.zero_le _
    · rw [if_neg hut]
      rw [turnsOf] at hu
      omega
  unfold finish
  dsimp only
  split
  · exact (turnContinues_release _ _).oneTurnEach ((keepsContainers_wakeAll _ _).oneTurnEach hended)
  · exact (keepsContainers_wakeAll _ _).oneTurnEach hended

theorem oneTurnEach_after {t : TaskId} {task : Task} {turn : Turn} (hl : w.OneTurnEach)
    (running : w.running = some t) (found : w.tasks[t]? = some task)
    (ht : turn.LeavesOthers w t task.home) : (after t task turn).OneTurnEach := by
  cases turn with
  | again w' activity =>
    have hcontinues : w.TurnContinues task.home w' := ht
    exact oneTurnEach_set (hcontinues.oneTurnEach hl) (by rw [hcontinues.tasks, found]) activity
  | wait w' activity =>
    have hyields : w.TurnYields task.home t w' := ht
    have hfound : w'.tasks[t]? = some task := by rw [hyields.tasks, found]
    exact oneTurnEach_set (hyields.oneTurnEach running hl) hfound activity
  | finish w' reply =>
    have hcontinues : w.TurnContinues task.home w' := ht
    exact oneTurnEach_finish (hcontinues.oneTurnEach hl) (hcontinues.running.trans running)
      (by rw [hcontinues.tasks, found]) reply

theorem sameCalls_after (t : TaskId) (task : Task) (turn : Turn) :
    SameCalls turn.world (after t task turn) := by
  cases turn with
  | again => exact ⟨rfl, rfl⟩
  | wait => exact ⟨rfl, rfl⟩
  | finish w reply =>
    have hended : SameCalls w { w with
        tasks := w.tasks.setIfInBounds t { task with reply := some reply }
        clock := w.clock.disarm t
        running := none
        script := if w.script = some t then none else w.script } := ⟨rfl, rfl⟩
    rw [after, finish]
    split
    · exact (hended.trans (sameCalls_wakeAll _ _)).trans (sameCalls_release _ _)
    · exact hended.trans (sameCalls_wakeAll _ _)

theorem callsServed_after (w : World) (t : TaskId) (task : Task) :
    CallsServed w (after t task (w.turn t task)) :=
  (changesOnlyAt_turn w t task).callsServed.trans (sameCalls_after t task (w.turn t task)).callsServed

theorem after_cases (t : TaskId) (task : Task) (turn : Turn) :
    ∃ w', w'.tasks = turn.world.tasks.setIfInBounds t (turn.task task) ∧
      w'.containers = turn.world.containers ∧
      (after t task turn = w' ∨
        task.activity.isClient = true ∧ after t task turn = w'.release task.home) := by
  cases turn with
  | again w activity => exact ⟨after t task (.again w activity), rfl, rfl, .inl rfl⟩
  | wait w activity => exact ⟨after t task (.wait w activity), rfl, rfl, .inl rfl⟩
  | finish w reply =>
    rw [after]
    generalize hafter : w.finish t task reply = w'
    unfold finish at hafter
    extract_lets ended woken at hafter
    have hwoken : KeepsContainers ended woken := keepsContainers_wakeAll ended _
    refine ⟨woken, hwoken.tasks, hwoken.containers, ?_⟩
    split at hafter
    · rename_i hclient
      exact .inr ⟨hclient, hafter.symm⟩
    · exact .inl hafter.symm

/-- A turn and what follows it move one task, and touch no container of another home. -/
theorem frame_after (w : World) (t : TaskId) (task : Task) :
    (after t task (w.turn t task)).tasks = w.tasks.setIfInBounds t ((w.turn t task).task task) ∧
      (after t task (w.turn t task)).containers.size = w.containers.size ∧
      ∀ other, other ≠ task.home →
        (after t task (w.turn t task)).container other = w.container other := by
  have honly := changesOnlyAt_turn w t task
  obtain ⟨w', htasks, hcontainers, hafter⟩ := after_cases t task (w.turn t task)
  have hsize := (congrArg (·.size) hcontainers).trans honly.size
  have hcontainer (other : Home) (hother : other ≠ task.home) :=
    (container_congr hcontainers other).trans (honly.elsewhere other hother)
  rw [honly.tasks] at htasks
  rcases hafter with heq | ⟨-, heq⟩
  · rw [heq]
    exact ⟨htasks, hsize, hcontainer⟩
  · have hcontinues := turnContinues_release w' task.home
    rw [heq]
    exact ⟨hcontinues.tasks.trans htasks, hcontinues.size.trans hsize,
      fun other hother => (hcontinues.elsewhere other hother).trans (hcontainer other hother)⟩

structure NoTaskMoves (w w' : World) : Prop extends SameCalls w w' where
  tasks : w'.tasks = w.tasks
  containers : w'.containers = w.containers
  oneTurnEach : w.OneTurnEach → w'.OneTurnEach

theorem noTaskMoves_beginTurn {t : TaskId} (ready : t ∈ w.ready.items) :
    NoTaskMoves w (w.beginTurn t) := by
  refine ⟨⟨rfl, rfl⟩, rfl, rfl, fun hl => hl.fewer ?_ fun u => ?_⟩
  · rfl
  · have hpos := List.count_pos_iff.2 ready
    simp only [turnsOf, beginTurn, Option.toList_some, List.count_singleton, List.count_erase,
      beq_iff_eq]
    split
    · rename_i htu
      subst htu
      omega
    · omega

theorem NoTaskMoves.trans (h : NoTaskMoves w w') (h' : NoTaskMoves w' w'') : NoTaskMoves w w'' where
  toSameCalls := h.toSameCalls.trans h'.toSameCalls
  tasks := h'.tasks.trans h.tasks
  containers := h'.containers.trans h.containers
  oneTurnEach := h'.oneTurnEach ∘ h.oneTurnEach

theorem noTaskMoves_beginRound? (h : w.beginRound? = some w') : NoTaskMoves w w' := by
  unfold beginRound? at h
  dsimp only at h
  split at h
  · cases h
  · have hround : NoTaskMoves w { w with
        ready := { items := w.ready.items ++ w.gaveWay }, gaveWay := [], turns := roundLength } := by
      refine ⟨⟨rfl, rfl⟩, rfl, rfl, fun hl => hl.fewer ?_ fun u => ?_⟩
      · rfl
      · simp only [turnsOf, List.count_append, List.count_nil]
        omega
    split at h
    · rename_i t hscript
      obtain rfl := Option.some.inj h
      have hready := (Option.filter_eq_some_iff.1 hscript).2
      exact hround.trans (noTaskMoves_beginTurn (List.contains_iff_mem.1 hready))
    · obtain rfl := Option.some.inj h
      exact hround

theorem noTaskMoves_pick? (h : w.pick? = some w') : NoTaskMoves w w' := by
  unfold pick? at h
  split at h
  · rename_i turns t _ hfind
    obtain rfl := Option.some.inj h
    have hbegun := noTaskMoves_beginTurn (List.mem_of_find?_eq_some hfind)
    exact hbegun.trans ⟨⟨rfl, rfl⟩, rfl, rfl, id⟩
  · exact noTaskMoves_beginRound? h

theorem noTaskMoves_jump {fired : List TaskId} (w : World) (clock : Clock) :
    NoTaskMoves w (fired.foldl (fun w t => w.wake t) { w with clock, turns := 0 }) := by
  have hkeeps := keepsContainers_foldl_wake fired { w with clock, turns := 0 }
  have hsame := sameCalls_foldl_wake fired { w with clock, turns := 0 }
  exact ⟨⟨hsame.link, hsame.calls⟩, hkeeps.tasks, hkeeps.containers, hkeeps.oneTurnEach⟩

/-- A step is a move of the task that has its turn, which has not ended, or no task moves. -/
theorem next?_cases (hl : w.OneTurnEach) (h : w.next? = some w') :
    NoTaskMoves w w' ∨ ∃ t task, w.running = some t ∧ w.tasks[t]? = some task ∧ task.reply = none ∧
      w' = after t task (w.turn t task) := by
  unfold next? at h
  split at h
  · rename_i t hrunning
    split at h
    · obtain rfl := Option.some.inj h
      refine .inl ⟨⟨rfl, rfl⟩, rfl, rfl, fun hl => hl.fewer ?_ fun u => ?_⟩
      · rfl
      · simp only [turnsOf, Option.toList_none, List.count_nil]
        omega
    · rename_i task hfound
      refine .inr ⟨t, task, hrunning, hfound, ?_, ?_⟩
      · have hunfinished := (hl.turnsOf_of_running hrunning).1
        rw [isFinished, hfound, Option.all_some] at hunfinished
        exact Option.not_isSome_iff_eq_none.1 (Bool.not_eq_true _ ▸ hunfinished)
      · split at h
        all_goals
          rename_i hturn
          obtain rfl := Option.some.inj h
          rw [hturn]
          rfl
  · split at h
    · rename_i w₁ hpick
      obtain rfl := Option.some.inj h
      exact .inl (noTaskMoves_pick? hpick)
    · split at h
      · cases h
      · obtain ⟨⟨fired, clock⟩, -, rfl⟩ := Option.map_eq_some_iff.1 h
        exact .inl (noTaskMoves_jump w clock)

/-- Whatever happens, no task has two turns to come and none has one after its end. -/
theorem oneTurnEach_next? (hl : w.OneTurnEach) (h : w.next? = some w') : w'.OneTurnEach := by
  rcases next?_cases hl h with hidle | ⟨t, task, hrunning, hfound, -, rfl⟩
  · exact hidle.oneTurnEach hl
  · exact oneTurnEach_after hl hrunning hfound (leavesOthers_turn w t task)

theorem size_next? (hl : w.OneTurnEach) (h : w.next? = some w') :
    w'.containers.size = w.containers.size := by
  rcases next?_cases hl h with hidle | ⟨t, task, -, -, -, rfl⟩
  · rw [hidle.containers]
  · exact (frame_after w t task).2.1

/-- Every task that has not ended belongs to a container that there is. -/
def TasksPlaced (w : World) : Prop :=
  ∀ (i : TaskId) task, w.tasks[i]? = some task → task.reply = none → task.home < w.containers.size

theorem TasksPlaced.congr (tasksPlaced : w.TasksPlaced) (tasks : w'.tasks = w.tasks)
    (size : w.containers.size ≤ w'.containers.size) : w'.TasksPlaced := by
  intro i task hfound unfinished
  rw [tasks] at hfound
  exact Nat.lt_of_lt_of_le (tasksPlaced i task hfound unfinished) size

theorem TasksPlaced.next? (tasksPlaced : w.TasksPlaced) (hl : w.OneTurnEach) (h : w.next? = some w') :
    w'.TasksPlaced := by
  rcases next?_cases hl h with hidle | ⟨t, task, -, hfound, hunfinished, rfl⟩
  · exact tasksPlaced.congr hidle.tasks (by rw [hidle.containers])
  · obtain ⟨htasks, hsize, -⟩ := frame_after w t task
    intro i task' hfound' hunfinished'
    rw [htasks, Array.getElem?_setIfInBounds] at hfound'
    rw [hsize]
    split at hfound'
    · split at hfound'
      · obtain rfl := Option.some.inj hfound'
        rw [home_task]
        exact tasksPlaced t task hfound hunfinished
      · cases hfound'
    · exact tasksPlaced i task' hfound' hunfinished'

theorem run_induction {P : World → Prop} (step : ∀ w w', P w → w.next? = some w' → P w')
    (fuel : Nat) (hw : P w) : P (run fuel w) := by
  induction fuel generalizing w with
  | zero => exact hw
  | succ fuel ih =>
    unfold run
    split
    · rename_i w' hnext
      exact ih (step w w' hw hnext)
    · exact hw

end World

end DistinctCount.Schedule
