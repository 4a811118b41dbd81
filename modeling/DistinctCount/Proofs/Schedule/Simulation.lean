import DistinctCount.Proofs.Schedule.TurnRuns
import DistinctCount.Proofs.Schedule.Steps

/-!
A world matches a system at a home when the container there is that of the system and the tasks that have
not ended are those the system knows of. Every step of the world is then a run of the system, with the
calls that are made for the home in that step.
-/

namespace DistinctCount.Schedule

open Container

/-- What a task does in the container of a home, unless it has ended or belongs to another one. -/
def Task.part? (home : Home) (task : Task) : Option Part :=
  if task.home = home ∧ task.reply.isNone then task.activity.part? else none

theorem part?_task {task : Task} {home : Home} (here : task.home = home)
    (unfinished : task.reply = none) (turn : Turn) : (turn.task task).part? home = turn.part? := by
  cases turn with
  | again => exact if_pos ⟨here, by rw [Turn.task, unfinished]; rfl⟩
  | wait => exact if_pos ⟨here, by rw [Turn.task, unfinished]; rfl⟩
  | finish => exact if_neg nofun

theorem fitsStage_task {task : Task} {s : System} {turn : Turn} (fits : turn.FitsStage s)
    (unfinished : (turn.task task).reply = none) : (turn.task task).activity.FitsStage s := by
  cases turn with
  | again => exact fits
  | wait => exact fits
  | finish => cases unfinished

theorem part?_elsewhere {task : Task} {home : Home} (elsewhere : task.home ≠ home) :
    task.part? home = none :=
  if_neg fun h => elsewhere h.1

namespace World

variable {w w' : World} {t : TaskId} {task : Task} {home : Home} {s s' : System} {turn : Turn}

def tally (w : World) (home : Home) (part : Part) : Nat :=
  w.tasks.countP fun task => task.part? home = some part

theorem tally_set (home : Home) (found : w.tasks[t]? = some task) (task' : Task) (part : Part) :
    (w.tasks.setIfInBounds t task').countP (fun task => task.part? home = some part) +
        (task.part? home).toList.count part =
      w.tally home part + (task'.part? home).toList.count part := by
  obtain ⟨hlt, hget⟩ := Array.getElem?_eq_some_iff.1 found
  have hcount (task : Task) : (task.part? home).toList.count part =
      if decide (task.part? home = some part) = true then 1 else 0 := by
    cases task.part? home with
    | none => rfl
    | some other => simp only [count_part, Option.some.injEq, decide_eq_true_eq, eq_comm (a := other)]
  have hpos : (if decide (task.part? home = some part) = true then 1 else 0) ≤ w.tally home part := by
    split
    · rename_i hpart
      exact Array.countP_pos_iff.2 ⟨task, hget ▸ Array.getElem_mem hlt, hpart⟩
    · exact Nat.zero_le _
  rw [Array.setIfInBounds_def, dif_pos hlt, Array.countP_set, hget, hcount, hcount]
  change (w.tally home part - _) + _ + _ = _
  omega

theorem tally_pos (found : w.tasks[t]? = some task) {part : Part} (hpart : task.part? home = some part) :
    0 < w.tally home part := by
  obtain ⟨hlt, hget⟩ := Array.getElem?_eq_some_iff.1 found
  exact Array.countP_pos_iff.2 ⟨task, hget ▸ Array.getElem_mem hlt, decide_eq_true hpart⟩

theorem tally_two {i : TaskId} {other : Task} {part : Part} (found : w.tasks[t]? = some task)
    (hpart : task.part? home = some part) (found' : w.tasks[i]? = some other)
    (hpart' : other.part? home = some part) (hne : i ≠ t) : 2 ≤ w.tally home part := by
  have hended : ({ task with reply := some .done } : Task).part? home = none := if_neg nofun
  have hset := tally_set home found { task with reply := some .done } part
  rw [hended, hpart, count_part, if_pos rfl, Option.toList_none, List.count_nil] at hset
  have hstays : (w.tasks.setIfInBounds t { task with reply := some .done })[i]? = some other := by
    rw [Array.getElem?_setIfInBounds_ne hne.symm, found']
  have hpos : 0 < (w.tasks.setIfInBounds t { task with reply := some .done }).countP
      fun task => task.part? home = some part :=
    tally_pos (w := { w with tasks := w.tasks.setIfInBounds t { task with reply := some .done } })
      hstays hpart'
  omega

/--
A world matches a system at a home: the tasks of the home that have not ended have the parts that the
system knows of, and what they are at fits the system.
-/
structure SystemMatches (w : World) (home : Home) (s : System) :
    Prop extends ContainerMatches w home s where
  tally : ∀ part, w.tally home part = s.tally part
  fits : ∀ (i : TaskId) task, w.tasks[i]? = some task → task.home = home → task.reply = none →
    task.activity.FitsStage s

theorem SystemMatches.congr (matched : w.SystemMatches home s) (tasks : w'.tasks = w.tasks)
    (size : w.containers.size ≤ w'.containers.size)
    (container : w'.container home = w.container home) : w'.SystemMatches home s where
  placed := Nat.lt_of_lt_of_le matched.placed size
  container := container.trans matched.container
  orderly := matched.orderly
  ended := matched.ended
  tally part := by rw [World.tally, tasks]; exact matched.tally part
  fits := by rw [tasks]; exact matched.fits

theorem isBackground_of_part {activity : Activity} {part : Part} (h : activity.part? = some part)
    (caller : ∀ key ticket, part ≠ .caller key ticket) (closer : part ≠ .closer) :
    activity.isBackground = true := by
  cases activity with
  | saver => rfl
  | writer => rfl
  | deletion key awaited =>
    cases awaited with
    | none => cases h
    | some awaited => exact absurd (Option.some.inj h).symm (caller key awaited.ticket)
  | shutdown stage =>
    cases stage with
    | begin => cases h
    | _ => exact absurd (Option.some.inj h).symm closer
  | _ => cases h

theorem SystemMatches.quiet (matched : w.SystemMatches home s) (quiet : w.isQuiet home = true) :
    s.writing = false ∧ s.container.saversRunning = false := by
  have hnone (part : Part) (background : ∀ activity : Activity, activity.part? = some part →
      activity.isBackground = true) : s.tally part = 0 := by
    rw [← matched.tally]
    refine Array.countP_eq_zero.2 fun task hmem hpart => ?_
    have htask := Array.all_eq_true_iff_forall_mem.1 quiet task hmem
    by_cases here : task.home = home ∧ task.reply.isNone
    · have hactivity : task.activity.part? = some part :=
        (if_pos here).symm.trans (of_decide_eq_true hpart)
      rw [background _ hactivity, here.1, Option.isSome_eq_false_iff.2 here.2] at htask
      simp at htask
    · exact nomatch (if_neg here).symm.trans (of_decide_eq_true hpart)
  refine ⟨Bool.toNat_eq_zero.1 (hnone .writer fun _ h => isBackground_of_part h nofun nofun), ?_⟩
  apply System.saversRunning_eq_false.2
  intro p
  exact Bool.toNat_eq_zero.1 (hnone (.saver p) fun _ h => isBackground_of_part h nofun nofun)

/-- When a task of another home moves those of the home stay. -/
theorem found_of_set {i : TaskId} {task' other : Task} (apart : task'.home ≠ home)
    (found : (w.tasks.setIfInBounds t task')[i]? = some other) (here : other.home = home) :
    w.tasks[i]? = some other := by
  rw [Array.getElem?_setIfInBounds] at found
  split at found
  · split at found
    · obtain rfl := Option.some.inj found
      exact absurd here apart
    · cases found
  · exact found

theorem SystemMatches.elsewhere (matched : w.SystemMatches home s) (found : w.tasks[t]? = some task)
    {task' : Task}
    (apart : task.home ≠ home) (same : task'.home = task.home)
    (tasks : w'.tasks = w.tasks.setIfInBounds t task')
    (size : w'.containers.size = w.containers.size)
    (container : w'.container home = w.container home) : w'.SystemMatches home s where
  placed := by rw [size]; exact matched.placed
  container := container.trans matched.container
  orderly := matched.orderly
  ended := matched.ended
  tally part := by
    have hset := tally_set home found task' part
    rw [part?_elsewhere apart, part?_elsewhere (same ▸ apart)] at hset
    rw [World.tally, tasks]
    exact (Nat.add_right_cancel hset).trans (matched.tally part)
  fits i other hother here unfinished := by
    rw [tasks] at hother
    exact matched.fits i other (found_of_set (same ▸ apart) hother here) here unfinished

theorem tally_closer_le (s : System) : s.tally .closer ≤ 1 := by
  rw [System.tally]
  split
  · exact Nat.le_refl 1
  · exact Nat.zero_le 1

theorem part?_of_activity {task : Task} (here : task.home = home) (unfinished : task.reply = none) :
    task.part? home = task.activity.part? :=
  if_pos ⟨here, by rw [unfinished]; rfl⟩

theorem SystemMatches.here (matched : w.SystemMatches home s) (found : w.tasks[t]? = some task)
    (here : task.home = home)
    (unfinished : task.reply = none) {task' : Task} {made : List (Request × Backend.Answer)}
    (taskRun : TaskRun s task.activity.part? (task'.part? home) made s')
    (tasks : w'.tasks = w.tasks.setIfInBounds t task')
    (size : w'.containers.size = w.containers.size) (container : w'.container home = s'.container)
    (fits : task'.reply = none → task'.activity.FitsStage s') : w'.SystemMatches home s' := by
  obtain ⟨h, run, -⟩ := taskRun.run
  obtain ⟨horderly, hended⟩ := System.orderly_run matched.orderly matched.ended run
  have htally (part : Part) : w'.tally home part = s'.tally part := by
    have hset := tally_set home found task' part
    have htaskRun := taskRun.tally part
    rw [part?_of_activity here unfinished, matched.tally] at hset
    rw [World.tally, tasks]
    omega
  refine ⟨⟨size ▸ matched.placed, container, horderly, hended⟩, htally, ?_⟩
  intro i other hother hhome hreply
  have hlt := (Array.getElem?_eq_some_iff.1 found).1
  by_cases hit : i = t
  · subst hit
    rw [tasks, Array.getElem?_setIfInBounds_self_of_lt hlt] at hother
    obtain rfl := Option.some.inj hother
    exact fits hreply
  · have hstays : w.tasks[i]? = some other := by
      rwa [tasks, Array.getElem?_setIfInBounds_ne (Ne.symm hit)] at hother
    have hfits := matched.fits i other hstays hhome hreply
    -- There is at most one closer, so the task that moved is none if this one is.
    by_cases hcloser : other.activity.part? = some .closer
    · have hother' : other.part? home = some .closer := (part?_of_activity hhome hreply).trans hcloser
      apply taskRun.fits _ _ _ hfits
      · intro hold
        have htwo := tally_two found ((part?_of_activity here unfinished).trans hold) hstays hother' hit
        rw [matched.tally] at htwo
        exact absurd (Nat.le_trans htwo (tally_closer_le s)) (by decide)
      · intro hnew
        have hfound : w'.tasks[t]? = some task' := by
          rw [tasks, Array.getElem?_setIfInBounds_self_of_lt hlt]
        have htwo := tally_two hfound hnew hother hother' hit
        rw [htally] at htwo
        exact absurd (Nat.le_trans htwo (tally_closer_le s')) (by decide)
    · exact hfits.other hcloser

theorem SystemMatches.moved (matched : w.SystemMatches home s) {made : List (Request × Backend.Answer)}
    (taskRun : TaskRun s none none made s') (tasks : w'.tasks = w.tasks)
    (size : w'.containers.size = w.containers.size) (container : w'.container home = s'.container) :
    w'.SystemMatches home s' := by
  obtain ⟨h, run, -⟩ := taskRun.run
  obtain ⟨horderly, hended⟩ := System.orderly_run matched.orderly matched.ended run
  refine ⟨⟨size ▸ matched.placed, container, horderly, hended⟩, fun part => ?_, ?_⟩
  · rw [World.tally, tasks]
    exact (matched.tally part).trans (taskRun.tally part).symm
  · rw [tasks]
    intro i task hfound hhome hreply
    exact taskRun.fits nofun nofun _ (matched.fits i task hfound hhome hreply)

/-- Letting go of a container is telling its tasks to stop, if anything. -/
theorem SystemMatches.release (matched : w.SystemMatches home s) (other : Home) :
    ∃ h s', Run s h s' ∧ DistinctCount.calls h = [] ∧ (w.release other).SystemMatches home s' := by
  have hcontinues := turnContinues_release w other
  by_cases hother : home = other
  · subst hother
    have hcases : w.release home = w ∨ w.release home = w.stop home := by
      unfold World.release
      dsimp only
      split
      · exact .inl rfl
      · exact .inr rfl
    rcases hcases with heq | heq
    · rw [heq]
      exact ⟨[], s, .refl, rfl, matched⟩
    · rw [heq] at hcontinues ⊢
      have htaskRun := taskRun_stop s none
      have hcontainer : (w.stop home).container home = (s.put s.container.tellToStop).container := by
        rw [container_stop matched.placed, matched.container]
        rfl
      obtain ⟨h, run, hcalls⟩ := htaskRun.run
      exact ⟨h, _, run, hcalls, matched.moved htaskRun hcontinues.tasks hcontinues.size hcontainer⟩
  · exact ⟨[], s, .refl, rfl,
      matched.congr hcontinues.tasks hcontinues.size.ge (hcontinues.elsewhere home hother)⟩

theorem systemMatches_after (t : TaskId) (task : Task) (matched : ∀ w' : World,
    w'.tasks = turn.world.tasks.setIfInBounds t (turn.task task) →
    w'.containers = turn.world.containers → w'.SystemMatches home s) :
    ∃ h s', Run s h s' ∧ DistinctCount.calls h = [] ∧ (after t task turn).SystemMatches home s' := by
  obtain ⟨w', htasks, hcontainers, heq | ⟨-, heq⟩⟩ := after_cases t task turn
  · rw [heq]
    exact ⟨[], s, .refl, rfl, matched w' htasks hcontainers⟩
  · rw [heq]
    exact (matched w' htasks hcontainers).release task.home

def callsIn (w w' : World) : List (Home × Request × Backend.Answer) :=
  match w.running.bind (w.tasks[·]?) with
  | some task => (made (w'.calls.take (w'.calls.length - w.calls.length))).map (task.home, ·)
  | none => []

def callsFor (home : Home) (calls : List (Home × Request × Backend.Answer)) :
    List (Request × Backend.Answer) :=
  calls.filterMap fun (other, call) => if other = home then some call else none

theorem callsIn_running {new : List Call} (running : w.running = some t) (found : w.tasks[t]? = some task)
    (calls : w'.calls = new ++ w.calls) : w.callsIn w' = (made new).map (task.home, ·) := by
  have hfound : w.running.bind (w.tasks[·]?) = some task := by
    rw [running, Option.bind_some, found]
  rw [callsIn, hfound, calls, List.length_append, Nat.add_sub_cancel, List.take_left]

theorem callsIn_sameCalls (calls : w'.calls = w.calls) : w.callsIn w' = [] := by
  rw [callsIn, calls, Nat.sub_self]
  split <;> rfl

theorem callsFor_here (home : Home) (calls : List (Request × Backend.Answer)) :
    callsFor home (calls.map (home, ·)) = calls := by
  rw [callsFor, List.filterMap_map]
  exact (List.filterMap_congr fun _ _ => if_pos rfl).trans List.filterMap_some

theorem callsFor_elsewhere {other : Home} (apart : other ≠ home)
    (calls : List (Request × Backend.Answer)) : callsFor home (calls.map (other, ·)) = [] := by
  rw [callsFor, List.filterMap_map]
  exact List.filterMap_eq_nil_iff.2 fun _ _ => if_neg apart

theorem callsFor_append (calls calls' : List (Home × Request × Backend.Answer)) :
    callsFor home (calls ++ calls') = callsFor home calls ++ callsFor home calls' :=
  List.filterMap_append

theorem serves_next? (hl : w.OneTurnEach) (step : w.next? = some w') :
    w.link.backend.Serves ((w.callsIn w').map Prod.snd) w'.link.backend := by
  rcases next?_cases hl step with hidle | ⟨t, task, hrunning, hfound, -, rfl⟩
  · rw [callsIn_sameCalls hidle.calls, hidle.link]
    exact .refl
  · obtain ⟨new, hcalls, hserves⟩ := callsServed_after w t task
    rw [callsIn_running hrunning hfound hcalls, List.map_map]
    exact (List.map_id _).symm ▸ hserves

/--
Every step of a world is a run of the system that it matches, which makes the calls that are made for the
home in the step.
-/
theorem SystemMatches.next? (matched : w.SystemMatches home s) (hl : w.OneTurnEach)
    (step : w.next? = some w') :
    ∃ h s', Run s h s' ∧ DistinctCount.calls h = callsFor home (w.callsIn w') ∧
      w'.SystemMatches home s' := by
  rcases next?_cases hl step with hidle | ⟨t, task, hrunning, hfound, hunfinished, rfl⟩
  · rw [callsIn_sameCalls hidle.calls]
    have hcontainer := container_congr hidle.containers home
    exact ⟨[], s, .refl, rfl, matched.congr hidle.tasks (by rw [hidle.containers]) hcontainer⟩
  · by_cases here : task.home = home
    · subst here
      have honly := changesOnlyAt_turn w t task
      have hholds (part : Part) (hpart : task.activity.part? = some part) : 0 < s.tally part := by
        rw [← matched.tally]
        exact tally_pos hfound ((part?_of_activity rfl hunfinished).trans hpart)
      obtain ⟨new, s₁, htaskRun, hcontainer, hcalls, hfits⟩ :=
        turnIsRun_turn matched.toContainerMatches t hholds
          (matched.fits t task hfound rfl hunfinished) matched.quiet
      rw [← part?_task rfl hunfinished] at htaskRun
      obtain ⟨h₁, run₁, hmade⟩ := htaskRun.run
      -- The end of a client's task may be what lets go of the container.
      obtain ⟨h₂, s₂, run₂, hnone, matched₂⟩ := systemMatches_after t task fun w' htasks hcontainers =>
        matched.here hfound rfl hunfinished htaskRun (by rw [htasks, honly.tasks])
          (by rw [hcontainers, honly.size]) ((container_congr hcontainers _).trans hcontainer)
          (fitsStage_task hfits)
      refine ⟨h₁ ++ h₂, s₂, run₁.append run₂, ?_, matched₂⟩
      rw [DistinctCount.calls_append, hmade, hnone, List.append_nil,
        callsIn_running hrunning hfound ((sameCalls_after t task _).calls.trans hcalls), callsFor_here]
    · obtain ⟨htasks, hsize, hcontainer⟩ := frame_after w t task
      obtain ⟨new, hmade, -⟩ := callsServed_after w t task
      rw [callsIn_running hrunning hfound hmade, callsFor_elsewhere here]
      exact ⟨[], s, .refl, rfl, matched.elsewhere hfound here (home_task _ task) htasks hsize
        (hcontainer home (Ne.symm here))⟩

end World

end DistinctCount.Schedule
