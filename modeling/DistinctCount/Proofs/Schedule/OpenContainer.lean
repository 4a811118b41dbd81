import DistinctCount.Proofs.Schedule.Course

namespace DistinctCount.Schedule.World

open Container

variable {w w' : World} {home : Home} {t : TaskId} {o : Opening} {config : Config}
  {calls : List (Request × Backend.Answer)}

def AllEndedAt (w : World) (home : Home) : Prop :=
  ∀ (i : TaskId) task, w.tasks[i]? = some task → task.home = home → task.reply.isSome = true

theorem TasksPlaced.allEnded (tasksPlaced : w.TasksPlaced) : w.AllEndedAt w.containers.size := by
  intro i task hfound hhome
  by_contra hunfinished
  have hlt := tasksPlaced i task hfound (Option.not_isSome_iff_eq_none.1 hunfinished)
  exact absurd hhome (Nat.ne_of_lt hlt)

inductive OpeningProgress (o : Opening) (calls : List (Request × Backend.Answer)) (w : World)
    (home : Home)
    (t : TaskId) : Prop
  | opening {o' : Opening} {phase : Phase}
      (found : w.tasks[t]? = some { home, activity := .opening o' phase })
      (opens : ∀ later c, Opens o' later c → Opens o (calls ++ later) c)
  | opened (finished : w.isFinished t = true) (opens : Opens o calls (w.container home))

/-- A container is being opened, or it has been opened, by the only task at its home. -/
structure OpeningAlone (o : Opening) (calls : List (Request × Backend.Answer)) (w : World) (home : Home)
    (t : TaskId) : Prop where
  placed : home < w.containers.size
  alone : ∀ (i : TaskId) task, w.tasks[i]? = some task → task.home = home → i ≠ t →
    task.reply.isSome = true
  progress : OpeningProgress o calls w home t

theorem OpeningProgress.congr (h : OpeningProgress o calls w home t) (task : w'.tasks[t]? = w.tasks[t]?)
    (container : w'.container home = w.container home) : OpeningProgress o calls w' home t := by
  cases h with
  | opening found opens => exact .opening (task.trans found) opens
  | opened finished opens =>
    refine .opened ?_ (container ▸ opens)
    rw [isFinished, task]
    exact finished

theorem OpeningAlone.congr (h : OpeningAlone o calls w home t) (tasks : w'.tasks = w.tasks)
    (containers : w'.containers = w.containers) : OpeningAlone o calls w' home t where
  placed := containers ▸ h.placed
  alone := tasks ▸ h.alone
  progress := h.progress.congr (by rw [tasks]) (container_congr containers home)

theorem OpeningAlone.elsewhere (h : OpeningAlone o calls w home t) {i : TaskId} {task : Task}
    (apart : task.home ≠ home) (other : i ≠ t) :
    OpeningAlone o calls (after i task (w.turn i task)) home t := by
  obtain ⟨htasks, hsize, hcontainer⟩ := frame_after w i task
  refine ⟨hsize ▸ h.placed, ?_, h.progress.congr ?_ (hcontainer home (Ne.symm apart))⟩
  · intro u task' hfound hhome hut
    rw [htasks] at hfound
    have hstays := found_of_set ((home_task _ task).symm ▸ apart) hfound hhome
    exact h.alone u task' hstays hhome hut
  · rw [htasks, Array.getElem?_setIfInBounds_ne other]

theorem OpeningAlone.own (h : OpeningAlone o calls w home t) {task : Task}
    (found : w.tasks[t]? = some task)
    (held : task.activity.isClient = false) (calls' : List (Request × Backend.Answer))
    (progress : ∀ w', w'.tasks[t]? = some ((w.turn t task).task task) →
      w'.containers = (w.turn t task).world.containers → OpeningProgress o calls' w' home t) :
    OpeningAlone o calls' (after t task (w.turn t task)) home t := by
  have hlt := (Array.getElem?_eq_some_iff.1 found).1
  obtain ⟨htasks, hsize, -⟩ := frame_after w t task
  refine ⟨hsize ▸ h.placed, ?_, progress _ ?_ ?_⟩
  · intro u other hother hhome hut
    rw [htasks, Array.getElem?_setIfInBounds_ne (Ne.symm hut)] at hother
    exact h.alone u other hother hhome hut
  · rw [htasks, Array.getElem?_setIfInBounds_self_of_lt hlt]
  · obtain ⟨w', -, hcontainers, rfl | ⟨hclient, -⟩⟩ := after_cases t task (w.turn t task)
    · exact hcontainers
    · rw [held] at hclient
      cases hclient

theorem OpeningAlone.here (h : OpeningAlone o calls w home t) {o' : Opening} {phase : Phase} {task : Task}
    (found : w.tasks[t]? = some task) (is : task = { home, activity := .opening o' phase })
    (opens : ∀ later c, Opens o' later c → Opens o (calls ++ later) c) :
    ∃ new, (after t task (w.turn t task)).calls = new ++ w.calls ∧
      OpeningAlone o (calls ++ made new) (after t task (w.turn t task)) home t := by
  have hsame := sameCalls_after t task (w.turn t task)
  have hown := h.own found (by rw [is]; rfl)
  have hturn : w.turn t task = w.openingTurn t home o' phase := by rw [is, turn]
  subst is
  rcases w.openingTurn_cases t home o' phase with ⟨hnone, heq⟩ | ⟨w₁, phase', heq, hstill⟩ |
    ⟨request, answer, w₁, phase', time, hrequest, heq, -, hcall⟩
  · rw [hturn, heq] at hsame hown ⊢
    refine ⟨[], hsame.calls, hown _ fun w' hself hcontainers => .opened ?_ ?_⟩
    · rw [isFinished, hself]
      rfl
    · have hput : w'.container home = o'.container := by
        rw [container, hcontainers]
        exact container_put h.placed o'.container
      rw [hput]
      exact opens [] _ (.done hnone)
  · rw [hturn, heq] at hsame hown ⊢
    refine ⟨[], hsame.calls.trans hstill.calls, hown _ fun w' hself _ => .opening hself ?_⟩
    exact (List.append_nil calls).symm ▸ opens
  · rw [hturn, heq] at hsame hown ⊢
    refine ⟨[{ time, request, answer }], hsame.calls.trans hcall,
      hown _ fun w' hself _ => .opening hself ?_⟩
    intro later c hlater
    rw [List.append_assoc]
    exact opens _ c (.step hrequest hlater)

/-- A step of the world is at most a step of the opening, with the calls that it makes. -/
theorem OpeningAlone.next? (h : OpeningAlone o calls w home t) (hl : w.OneTurnEach)
    (step : w.next? = some w') :
    OpeningAlone o (calls ++ callsFor home (w.callsIn w')) w' home t := by
  rcases next?_cases hl step with hidle | ⟨i, task, hrunning, hfound, hunfinished, rfl⟩
  · rw [callsIn_sameCalls hidle.calls]
    exact (List.append_nil calls).symm ▸ h.congr hidle.tasks hidle.containers
  · have hprogress := h.progress
    by_cases hit : i = t
    · subst hit
      cases hprogress with
      | opening found opens =>
        have his := Option.some.inj (hfound.symm.trans found)
        obtain ⟨new, hcalls, halone⟩ := h.here hfound his opens
        have hhome : task.home = home := congrArg Task.home his
        rw [callsIn_running hrunning hfound hcalls, hhome, callsFor_here]
        exact halone
      | opened finished =>
        rw [isFinished, hfound, Option.all_some, hunfinished] at finished
        cases finished
    · have hapart : task.home ≠ home := by
        intro hhome
        have hended := h.alone i task hfound hhome hit
        rw [hunfinished] at hended
        cases hended
      obtain ⟨new, hcalls, -⟩ := callsServed_after w i task
      rw [callsIn_running hrunning hfound hcalls, callsFor_elsewhere hapart, List.append_nil]
      exact h.elsewhere hapart hit

theorem openingAlone_start (allEnded : w.AllEndedAt home) (placed : home < w.containers.size)
    (o : Opening) :
    OpeningAlone o [] (w.start home (.opening o .ready)).2 home w.tasks.size := by
  refine ⟨placed, ?_, .opening Array.getElem?_push_size fun _ _ => id⟩
  intro i task hfound hhome hlast
  rw [start, Array.getElem?_push, if_neg hlast] at hfound
  exact allEnded i task hfound hhome

theorem openingAlone_call (hl : w.OneTurnEach) (allEnded : w.AllEndedAt home)
    (placed : home < w.containers.size)
    (o : Opening) : OneTurnEach (w.call home (.opening o .ready)).2 ∧
      ∃ calls, OpeningAlone o (callsFor home calls) (w.call home (.opening o .ready)).2 home w.tasks.size ∧
        w.link.backend.Serves (calls.map Prod.snd) (w.call home (.opening o .ready)).2.link.backend := by
  refine run_induction (P := fun w' => w'.OneTurnEach ∧ ∃ calls,
    OpeningAlone o (callsFor home calls) w' home w.tasks.size ∧
      w.link.backend.Serves (calls.map Prod.snd) w'.link.backend) ?_ enough ?_
  · rintro w₁ w₂ ⟨hl₁, calls, halone, hserves⟩ hnext
    refine ⟨oneTurnEach_next? hl₁ hnext, calls ++ w₁.callsIn w₂, ?_, ?_⟩
    · rw [callsFor_append]
      exact halone.next? hl₁ hnext
    · rw [List.map_append]
      exact hserves.trans (serves_next? hl₁ hnext)
  · have hstart := openingAlone_start allEnded placed o
    exact ⟨oneTurnEach_start hl home _, [], hstart.congr rfl rfl, .refl⟩

/-- The only task at a home has opened the container and ended. -/
theorem OpeningAlone.opened (h : OpeningAlone o calls w home t) (ended : w.isFinished t = true) :
    Opens o calls (w.container home) ∧ w.AllEndedAt home := by
  refine ⟨?_, ?_⟩
  · cases h.progress with
    | opening found =>
      rw [isFinished, found] at ended
      cases ended
    | opened _ opens => exact opens
  · intro i task hfound hhome
    by_cases hit : i = t
    · rw [isFinished, ← hit, hfound] at ended
      exact ended
    · exact h.alone i task hfound hhome hit

theorem tasks_foldl_start (home : Home) (activities : List Activity) (w : World) :
    (activities.foldl (fun w activity => (w.start home activity).2) w).tasks =
      w.tasks ++ (activities.map fun activity => ({ home, activity } : Task)).toArray := by
  induction activities generalizing w with
  | nil => rw [List.foldl_nil, List.map_nil, Array.append_empty]
  | cons activity activities ih =>
    rw [List.foldl_cons, ih]
    exact List.push_append_toArray

theorem foldl_start_frame (home : Home) (activities : List Activity) (w : World) :
    (activities.foldl (fun w activity => (w.start home activity).2) w).containers = w.containers ∧
      (activities.foldl (fun w activity => (w.start home activity).2) w).link = w.link ∧
      (w.OneTurnEach →
        (activities.foldl (fun w activity => (w.start home activity).2) w).OneTurnEach) := by
  apply List.foldlRecOn (motive := fun w' : World => w'.containers = w.containers ∧
    w'.link = w.link ∧ (w.OneTurnEach → w'.OneTurnEach)) _ _ ⟨rfl, rfl, id⟩
  rintro w' ⟨hcontainers, hlink, hturns⟩ activity _
  exact ⟨hcontainers, hlink, fun hl => oneTurnEach_start (hturns hl) home activity⟩

theorem fitsStage_of_isBackground {s : System} {activity : Activity} (h : activity.isBackground = true) :
    activity.FitsStage s := by
  cases activity with
  | sweeper => trivial
  | saver => trivial
  | writer => trivial
  | _ => cases h

theorem isBackground_background : ∀ activity ∈ background true, activity.isBackground = true := by
  decide

/-- The tasks that a container starts have the parts that a system begins with. -/
theorem countP_background {c : Container} (hr : Ready config c) (part : Part) :
    (background true).countP (fun activity => activity.part? = some part) =
      (System.start c).tally part := by
  cases part with
  | saver p =>
    have hrunning : (c.savers.get p).running = true := by
      rw [hr.frame]
      exact congrArg Saver.running (Vector.getElem_replicate p.isLt)
    have honce : ∀ p : Partition,
        (background true).countP (fun activity => activity.part? = some (.saver p)) = 1 := by
      decide
    rw [System.tally, System.start, hrunning, honce]
    rfl
  | writer => rfl
  | caller key ticket => rfl
  | closer =>
    rw [System.tally, if_neg]
    · rfl
    · rintro ⟨hclosed, -⟩
      rw [System.start, hr.idle.2.2.2.2.2.1] at hclosed
      cases hclosed

theorem countP_allEnded (allEnded : w.AllEndedAt home) (part : Part) :
    w.tasks.countP (fun task => task.part? home = some part) = 0 := by
  refine Array.countP_eq_zero.2 fun task hmem hpart => ?_
  obtain ⟨i, hi, rfl⟩ := Array.mem_iff_getElem.1 hmem
  have hnone : w.tasks[i].part? home = none := by
    refine if_neg fun h => ?_
    have hended := allEnded i _ (Array.getElem?_eq_getElem hi) h.1
    rw [Option.isNone_iff_eq_none.1 h.2] at hended
    cases hended
  rw [hnone] at hpart
  cases of_decide_eq_true hpart

theorem systemMatches_background (allEnded : w.AllEndedAt home) (placed : home < w.containers.size)
    (hr : Ready config (w.container home)) :
    SystemMatches ((background true).foldl (fun w activity => (w.start home activity).2) w) home
      (System.start (w.container home)) := by
  have htasks := tasks_foldl_start home (background true) w
  obtain ⟨hcontainers, -, -⟩ := foldl_start_frame home (background true) w
  generalize (background true).foldl (fun w activity => (w.start home activity).2) w = w'
    at htasks hcontainers ⊢
  refine ⟨⟨hcontainers ▸ placed, ?_, hr.sane.orderly, nofun⟩, fun part => ?_, ?_⟩
  · rw [container, hcontainers]
    rfl
  · rw [World.tally, htasks, Array.countP_append, countP_allEnded allEnded, Nat.zero_add,
      ← countP_background hr, List.countP_toArray, List.countP_map]
    refine List.countP_congr fun activity _ => ?_
    have hpart : Task.part? home { home, activity } = activity.part? := part?_of_activity rfl rfl
    rw [Function.comp_apply, hpart]
  · intro i task hfound hhome unfinished
    rw [htasks] at hfound
    rcases Array.mem_append.1 (Array.mem_of_getElem? hfound) with hold | hnew
    · obtain ⟨j, hj⟩ := Array.getElem?_of_mem hold
      have hended := allEnded j task hj hhome
      rw [unfinished] at hended
      cases hended
    · obtain ⟨activity, hactivity, rfl⟩ := List.mem_map.1 (List.mem_toArray.1 hnew)
      exact fitsStage_of_isBackground (isBackground_background activity hactivity)

theorem wall_wakeAll (w : World) (p : Task → Bool) : (w.wakeAll p).wall = w.wall := by
  apply List.foldlRecOn (motive := fun w' : World => w'.wall = w.wall) _ _ rfl
  intro w' heq t _
  split
  · unfold wake
    split <;> exact heq
  · exact heq

theorem wall_drop (w : World) : w.drop.wall = w.wall := by
  unfold drop
  split
  · rfl
  · unfold release
    dsimp only
    split
    · rfl
    · exact wall_wakeAll _ _

theorem tasks_drop (w : World) : w.drop.tasks = w.tasks := by
  unfold drop
  split
  · rfl
  · exact (turnContinues_release _ _).tasks

theorem openContainer_eq_ok (h : w.openContainer config true = (.ok (), w')) :
    w' = { (background true).foldl (fun w' activity => (w'.start w.containers.size activity).2)
      ((w.drop.found (.create config true)).2.call w.containers.size
        (.opening (beginOpen config w.wall w.link.backend.scan) .ready)).2 with
      current := some w.containers.size } := by
  unfold openContainer at h
  dsimp only at h
  split at h
  · cases congrArg Prod.fst h
  · rw [if_pos rfl] at h
    split at h
    · cases congrArg Prod.fst h
    · rename_i w₂ hrestored
      have hfound : (w.drop.found (.create config true)).1 = w.containers.size := size_drop w
      have hlink : (w.drop.found (.create config true)).2.link = w.link := (sameCalls_drop w).link
      have hwall : (w.drop.found (.create config true)).2.wall = w.wall := wall_drop w
      have hopened := restore_eq_ok hrestored
      rw [hfound, hlink, hwall] at hopened
      rw [hopened, hfound] at h
      exact (congrArg Prod.snd h).symm

theorem isFinished_foldl_start {activities : List Activity}
    (h : (activities.foldl (fun w activity => (w.start home activity).2) w).isFinished t = true) :
    w.isFinished t = true := by
  rw [isFinished, tasks_foldl_start] at h
  rw [isFinished]
  cases htask : w.tasks[t]? with
  | none => rfl
  | some task =>
    obtain ⟨hlt, hget⟩ := Array.getElem?_eq_some_iff.1 htask
    rwa [Array.getElem?_append_left hlt, htask] at h

theorem systemMatches_opened (hl : w.OneTurnEach) (allEnded : w.AllEndedAt home)
    (placed : home < w.containers.size)
    (hready : ∀ calls c, Opens o calls c → Ready config c)
    (opened : w' = (background true).foldl (fun w activity => (w.start home activity).2)
      (w.call home (.opening o .ready)).2) (ended : w'.isFinished w.tasks.size = true) :
    w'.OneTurnEach ∧ ∃ calls c, Opens o (callsFor home calls) c ∧ w'.SystemMatches home (System.start c) ∧
      w.link.backend.Serves (calls.map Prod.snd) w'.link.backend := by
  obtain ⟨hturns, calls, halone, hserves⟩ := openingAlone_call hl allEnded placed o
  generalize (w.call home (.opening o .ready)).2 = w₁ at opened hturns halone hserves
  obtain ⟨-, hlink, hstarted⟩ := foldl_start_frame home (background true) w₁
  subst opened
  obtain ⟨hopens, hallEnded⟩ := halone.opened (isFinished_foldl_start ended)
  refine ⟨hstarted hturns, calls, _, hopens, ?_, ?_⟩
  · exact systemMatches_background hallEnded halone.placed (hready _ _ hopens)
  · rw [hlink]
    exact hserves

/--
Where the script has opened a container, and the task that opened it has ended, the world matches the
system of a container that was opened on the records of the store.
-/
theorem systemMatches_openContainer (hl : w.OneTurnEach) (tasksPlaced : w.TasksPlaced)
    (opened : w.openContainer config true = (.ok (), w')) (ended : w'.isFinished w.tasks.size = true) :
    w'.OneTurnEach ∧ ∃ calls c,
      Opens (beginOpen config w.wall w.link.backend.scan) (callsFor w.containers.size calls) c ∧
      w'.SystemMatches w.containers.size (System.start c) ∧
      w.link.backend.Serves (calls.map Prod.snd) w'.link.backend := by
  have hdropped := (course_drop w.containers.size w).oneTurnEach hl
  have hturns : (w.drop.found (.create config true)).2.OneTurnEach := hdropped
  have htasks : (w.drop.found (.create config true)).2.tasks = w.tasks := tasks_drop w
  have hlink : (w.drop.found (.create config true)).2.link = w.link := (sameCalls_drop w).link
  have hplaced : w.containers.size < (w.drop.found (.create config true)).2.containers.size := by
    rw [found, Array.size_push, size_drop]
    exact Nat.lt_succ_self _
  have heq := openContainer_eq_ok opened
  generalize (w.drop.found (.create config true)).2 = w₀ at hturns htasks hlink hplaced heq
  generalize hstarted : (background true).foldl
    (fun w' activity => (w'.start w.containers.size activity).2) (w₀.call w.containers.size
      (.opening (beginOpen config w.wall w.link.backend.scan) .ready)).2 = w₁ at heq
  subst heq
  have hended : w₁.isFinished w₀.tasks.size = true := htasks.symm ▸ ended
  have hallEnded : w₀.AllEndedAt w.containers.size := by
    rw [AllEndedAt, htasks]
    exact tasksPlaced.allEnded
  obtain ⟨hl', calls, c, hopens, matched, hserves⟩ := systemMatches_opened hturns hallEnded hplaced
    (fun calls c => Opens.ready_beginOpen) hstarted.symm hended
  rw [hlink] at hserves
  exact ⟨hl', calls, c, hopens, matched.congr rfl (Nat.le_refl _) rfl, hserves⟩

theorem oneTurnEach_nothing : OneTurnEach {} := fun _ => Nat.zero_le _

theorem tasksPlaced_nothing : TasksPlaced {} := by
  intro i task hfound
  rw [Array.getElem?_empty] at hfound
  cases hfound

/-- The first container of a script, on an empty store. -/
example : ∃ c, (({} : World).openContainer {} true).2.SystemMatches 0 (System.start c) := by
  have hopened : (({} : World).openContainer {} true).1.toBool = true := by decide +kernel
  have hended : (({} : World).openContainer {} true).2.isFinished 0 = true := by decide +kernel
  cases hresult : ({} : World).openContainer {} true with
  | mk result w' =>
    rw [hresult] at hopened hended
    cases result with
    | error e => cases hopened
    | ok =>
      obtain ⟨-, calls, c, -, matched, -⟩ :=
        systemMatches_openContainer oneTurnEach_nothing tasksPlaced_nothing hresult hended
      exact ⟨c, matched⟩

/--
The script opens a container on a store and does whatever it likes with it and with others: the container
goes through a run of its system from the opening on, and the store has answered all calls in their order.
-/
theorem run_of_course {later : List (Home × Request × Backend.Answer)} {w'' : World} (hl : w.OneTurnEach)
    (tasksPlaced : w.TasksPlaced) (opened : w.openContainer config true = (.ok (), w'))
    (ended : w'.isFinished w.tasks.size = true) (course : Course w.containers.size w' later w'') :
    ∃ before c h s b failNext,
      Opens (beginOpen config w.wall w.link.backend.scan) (callsFor w.containers.size before) c ∧
      Run (System.start c) h s ∧ DistinctCount.calls h = callsFor w.containers.size later ∧
      w''.SystemMatches w.containers.size s ∧
      w.link.backend.Serves ((before ++ later).map Prod.snd) b ∧
      w''.link.backend = { b with failNext } := by
  obtain ⟨hl', before, c, hopens, matched, hserves⟩ :=
    systemMatches_openContainer hl tasksPlaced opened ended
  obtain ⟨h, s, run, hcalls, matched'⟩ := matched.course hl' course
  obtain ⟨b, failNext, hserves', hbackend⟩ := course.serves hl'
  refine ⟨before, c, h, s, b, failNext, hopens, run, hcalls, matched', ?_, hbackend⟩
  rw [List.map_append]
  exact hserves.trans hserves'

end DistinctCount.Schedule.World
