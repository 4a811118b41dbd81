import DistinctCount.Proofs.Schedule.Simulation

namespace DistinctCount.Schedule

open Container

def Activity.begins : Activity → Bool
  | .deletion _ none | .shutdown .begin | .sleeping _ | .joining _ => true
  | _ => false

theorem Activity.part?_of_begins {activity : Activity} (h : activity.begins = true) :
    activity.part? = none := by
  cases activity with
  | deletion key awaited =>
    cases awaited with
    | none => rfl
    | some => cases h
  | shutdown stage =>
    cases stage with
    | begin => rfl
    | _ => cases h
  | sleeping => rfl
  | joining => rfl
  | _ => cases h

theorem Activity.fitsStage_of_begins {activity : Activity} (h : activity.begins = true) (s : System) :
    activity.FitsStage s := by
  cases activity with
  | deletion => trivial
  | shutdown stage =>
    cases stage with
    | begin => trivial
    | _ => cases h
  | sleeping => trivial
  | joining => trivial
  | _ => cases h

namespace World

variable {w w' w'' : World} {home : Home} {s : System}
  {calls calls' : List (Home × Request × Backend.Answer)}

/-- Nothing is done to a container, and nobody gets a turn by it. The store may be told to fail. -/
structure DoesNothingAt (home : Home) (w w' : World) : Prop where
  tasks : w'.tasks = w.tasks
  size : w.containers.size ≤ w'.containers.size
  container : w'.container home = w.container home
  fewer : ∀ t, w'.turnsOf t ≤ w.turnsOf t
  backend : ∃ failNext, w'.link.backend = { w.link.backend with failNext }

/-- What the script does between two steps, where one container is watched. -/
inductive ScriptAct (home : Home) (w : World) : World → Prop
  | immediate {e : Event} (he : e.isImmediate = true) :
      ScriptAct home w (w.put home (e.applied (w.container home)))
  /-- A container that is not watched may have any tasks. -/
  | start (other : Home) (activity : Activity) (placed : other < w.containers.size)
      (begins : other = home → activity.begins = true) : ScriptAct home w (w.start other activity).2
  | release (other : Home) : ScriptAct home w (w.release other)
  | elsewhere {w' : World} (idle : DoesNothingAt home w w') : ScriptAct home w w'

inductive Course (home : Home) (w : World) :
    List (Home × Request × Backend.Answer) → World → Prop
  | refl : Course home w [] w
  | step {calls : List (Home × Request × Backend.Answer)} {w' w'' : World}
      (course : Course home w calls w') (next : w'.next? = some w'') :
      Course home w (calls ++ w'.callsIn w'') w''
  | act {calls : List (Home × Request × Backend.Answer)} {w' w'' : World}
      (course : Course home w calls w') (scriptAct : ScriptAct home w' w'') : Course home w calls w''

theorem oneTurnEach_start (hl : w.OneTurnEach) (other : Home) (activity : Activity) :
    (w.start other activity).2.OneTurnEach := by
  intro u
  have hu := hl u
  by_cases hlast : u = w.tasks.size
  -- A task that there was not yet counts as ended, so it had no turn to come.
  · have hfinished : w.isFinished u = true := by
      rw [isFinished, hlast, Array.getElem?_eq_none (Nat.le_refl _), Option.all_none]
    have hstarted : (w.start other activity).2.isFinished u = false := by
      rw [hlast, start, isFinished, Array.getElem?_push_size]
      rfl
    rw [hfinished, if_pos rfl, turnsOf] at hu
    rw [hstarted, if_neg Bool.false_ne_true]
    simp only [turnsOf, start, Queue.push, List.count_append, List.count_singleton, beq_iff_eq]
    split <;> omega
  · have hsame : (w.start other activity).2.isFinished u = w.isFinished u := by
      rw [start, isFinished, Array.getElem?_push, if_neg hlast, isFinished]
    rw [hsame]
    refine Nat.le_trans (Nat.le_of_eq ?_) hu
    simp only [turnsOf, start, Queue.push, List.count_append, List.count_singleton, beq_iff_eq,
      if_neg (Ne.symm hlast), Nat.add_zero]

theorem oneTurnEach_scriptAct (hl : w.OneTurnEach) (scriptAct : ScriptAct home w w') :
    w'.OneTurnEach := by
  cases scriptAct with
  | immediate => exact (turnContinues_put w home _).oneTurnEach hl
  | start other activity => exact oneTurnEach_start hl other activity
  | release other => exact (turnContinues_release w other).oneTurnEach hl
  | elsewhere idle => exact hl.fewer idle.tasks idle.fewer

theorem TasksPlaced.start (tasksPlaced : w.TasksPlaced) {other : Home} (activity : Activity)
    (placed : other < w.containers.size) : (w.start other activity).2.TasksPlaced := by
  intro i task hfound unfinished
  rw [World.start, Array.getElem?_push] at hfound
  split at hfound
  · obtain rfl := Option.some.inj hfound
    exact placed
  · exact tasksPlaced i task hfound unfinished

theorem TasksPlaced.scriptAct (tasksPlaced : w.TasksPlaced) (scriptAct : ScriptAct home w w') :
    w'.TasksPlaced := by
  cases scriptAct with
  | immediate => exact tasksPlaced.congr rfl (turnContinues_put w home _).size.ge
  | start other activity placed => exact tasksPlaced.start activity placed
  | release other =>
    have hcontinues := turnContinues_release w other
    exact tasksPlaced.congr hcontinues.tasks hcontinues.size.ge
  | elsewhere idle => exact tasksPlaced.congr idle.tasks idle.size

theorem size_scriptAct (scriptAct : ScriptAct home w w') : w.containers.size ≤ w'.containers.size := by
  cases scriptAct with
  | immediate => exact (turnContinues_put w home _).size.ge
  | start => exact Nat.le_refl _
  | release other => exact (turnContinues_release w other).size.ge
  | elsewhere idle => exact idle.size

theorem SystemMatches.start (matched : w.SystemMatches home s) {other : Home} {activity : Activity}
    (begins : other = home → activity.begins = true) :
    (w.start other activity).2.SystemMatches home s := by
  refine ⟨⟨matched.placed, matched.container, matched.orderly, matched.ended⟩, fun part => ?_, ?_⟩
  · have hnone : Task.part? home { home := other, activity } = none := by
      by_cases hother : other = home
      · exact (part?_of_activity hother rfl).trans (Activity.part?_of_begins (begins hother))
      · exact part?_elsewhere hother
    rw [← matched.tally, World.tally, World.start, Array.countP_push_of_neg]
    · rfl
    · rw [hnone]
      exact Bool.false_ne_true
  · intro i task hfound here unfinished
    rw [World.start, Array.getElem?_push] at hfound
    split at hfound
    · obtain rfl := Option.some.inj hfound
      exact Activity.fitsStage_of_begins (begins here) s
    · exact matched.fits i task hfound here unfinished

theorem SystemMatches.scriptAct (matched : w.SystemMatches home s) (scriptAct : ScriptAct home w w') :
    ∃ h s', Run s h s' ∧ DistinctCount.calls h = [] ∧ w'.SystemMatches home s' := by
  cases scriptAct with
  | @immediate e he =>
    have htaskRun := taskRun_immediate he s none
    obtain ⟨h, run, hcalls⟩ := htaskRun.run
    rw [matched.container]
    have hcontinues := turnContinues_put w home (e.applied s.container)
    exact ⟨h, _, run, hcalls,
      matched.moved htaskRun hcontinues.tasks hcontinues.size (matched.container_put _)⟩
  | start other activity _ begins => exact ⟨[], s, .refl, rfl, matched.start begins⟩
  | release other => exact matched.release other
  | elsewhere idle => exact ⟨[], s, .refl, rfl, matched.congr idle.tasks idle.size idle.container⟩

theorem Course.oneTurnEach (hl : w.OneTurnEach) (course : Course home w calls w') : w'.OneTurnEach := by
  induction course with
  | refl => exact hl
  | step _ next ih => exact oneTurnEach_next? ih next
  | act _ scriptAct ih => exact oneTurnEach_scriptAct ih scriptAct

theorem Course.tasksPlaced (hl : w.OneTurnEach) (tasksPlaced : w.TasksPlaced)
    (course : Course home w calls w') :
    w'.TasksPlaced := by
  induction course with
  | refl => exact tasksPlaced
  | step course next ih => exact ih.next? (course.oneTurnEach hl) next
  | act _ scriptAct ih => exact ih.scriptAct scriptAct

theorem Course.size_le (hl : w.OneTurnEach) (course : Course home w calls w') :
    w.containers.size ≤ w'.containers.size := by
  induction course with
  | refl => exact Nat.le_refl _
  | step course next ih => exact Nat.le_trans ih (size_next? (course.oneTurnEach hl) next).ge
  | act _ scriptAct ih => exact Nat.le_trans ih (size_scriptAct scriptAct)

/--
Whatever the script does and however the tasks take turns, a container that a system describes goes
through a run of that system, and the calls made for it are those of the run.
-/
theorem SystemMatches.course (matched : w.SystemMatches home s) (hl : w.OneTurnEach)
    (course : Course home w calls w') :
    ∃ h s', Run s h s' ∧ DistinctCount.calls h = callsFor home calls ∧ w'.SystemMatches home s' := by
  induction course with
  | refl => exact ⟨[], s, .refl, rfl, matched⟩
  | step course next ih =>
    obtain ⟨h, s', run, hcalls, matched'⟩ := ih
    obtain ⟨h', s'', run', hcalls', matched''⟩ := matched'.next? (course.oneTurnEach hl) next
    refine ⟨h ++ h', s'', run.append run', ?_, matched''⟩
    rw [DistinctCount.calls_append, hcalls, hcalls', callsFor_append]
  | act _ scriptAct ih =>
    obtain ⟨h, s', run, hcalls, matched'⟩ := ih
    obtain ⟨h', s'', run', hnone, matched''⟩ := matched'.scriptAct scriptAct
    refine ⟨h ++ h', s'', run.append run', ?_, matched''⟩
    rw [DistinctCount.calls_append, hcalls, hnone, List.append_nil]

theorem backend_scriptAct (scriptAct : ScriptAct home w w') :
    ∃ failNext, w'.link.backend = { w.link.backend with failNext } := by
  cases scriptAct with
  | immediate => exact ⟨w.link.backend.failNext, rfl⟩
  | start => exact ⟨w.link.backend.failNext, rfl⟩
  | release other =>
    rw [(sameCalls_release w other).link]
    exact ⟨w.link.backend.failNext, rfl⟩
  | elsewhere idle => exact idle.backend

/-- The store has given the answers to all calls that were made for any container. -/
theorem Course.serves (hl : w.OneTurnEach) (course : Course home w calls w') :
    ∃ b failNext, w.link.backend.Serves (calls.map Prod.snd) b ∧
      w'.link.backend = { b with failNext } := by
  induction course with
  | refl => exact ⟨w.link.backend, w.link.backend.failNext, .refl, rfl⟩
  | step course next ih =>
    obtain ⟨b, failNext, hserves, hbackend⟩ := ih
    have hstep := serves_next? (course.oneTurnEach hl) next
    rw [hbackend] at hstep
    obtain ⟨b', failNext', hserves', hbackend'⟩ := hstep.of_failNext
    refine ⟨b', failNext', ?_, hbackend'⟩
    rw [List.map_append]
    exact hserves.trans hserves'
  | act _ scriptAct ih =>
    obtain ⟨b, failNext, hserves, hbackend⟩ := ih
    obtain ⟨failNext', hbackend'⟩ := backend_scriptAct scriptAct
    exact ⟨b, failNext', hserves, by rw [hbackend', hbackend]⟩

theorem Course.trans (course : Course home w calls w') (course' : Course home w' calls' w'') :
    Course home w (calls ++ calls') w'' := by
  induction course' with
  | refl => rwa [List.append_nil]
  | step _ next ih =>
    rw [← List.append_assoc]
    exact ih.step next
  | act _ scriptAct ih => exact ih.act scriptAct

theorem ScriptAct.course (scriptAct : ScriptAct home w w') : Course home w [] w' :=
  Course.refl.act scriptAct

theorem doesNothingAt_set (home : Home) (w : World) (current : Option Home) (script : Option TaskId)
    (turns : Nat) : DoesNothingAt home w { w with current, script, turns } :=
  ⟨rfl, Nat.le_refl _, rfl, fun _ => Nat.le_refl _, w.link.backend.failNext, rfl⟩

theorem course_run (home : Home) (fuel : Nat) (w : World) :
    ∃ calls, Course home w calls (run fuel w) := by
  apply run_induction (P := fun w' => ∃ calls, Course home w calls w') ?_ fuel ⟨[], .refl⟩
  rintro w₁ w₂ ⟨calls, course⟩ hnext
  exact ⟨_, course.step hnext⟩

theorem course_settle (home : Home) (w : World) : ∃ calls, Course home w calls w.settle := by
  obtain ⟨calls, hrun⟩ := course_run home enough { w with turns := 0 }
  exact ⟨calls, (ScriptAct.elsewhere (doesNothingAt_set home w w.current w.script 0)).course.trans hrun⟩

theorem course_call {other : Home} {activity : Activity} (placed : other < w.containers.size)
    (begins : other = home → activity.begins = true) :
    ∃ calls, Course home w calls (w.call other activity).2 := by
  have hstart := ScriptAct.start other activity placed begins
  have hidle := doesNothingAt_set home (w.start other activity).2 w.current (some w.tasks.size) 0
  obtain ⟨calls, hrun⟩ := course_run home enough { (w.start other activity).2 with
    script := some w.tasks.size, turns := 0 }
  exact ⟨calls, (hstart.course.act (.elsewhere hidle)).trans hrun⟩

theorem course_advance (home : Home) (placed : 0 < w.containers.size) (millis : Nat) :
    ∃ calls, Course home w calls (w.advance millis) :=
  course_call placed fun _ => rfl

theorem course_drop (home : Home) (w : World) : Course home w [] w.drop := by
  unfold drop
  split
  · exact .refl
  · rename_i other _
    have hnone := doesNothingAt_set home w none w.script w.turns
    exact (ScriptAct.elsewhere hnone).course.act (.release other)

theorem course_foldl_start {other : Home} (placed : other < w.containers.size) (apart : other ≠ home)
    (activities : List Activity) :
    Course home w [] (activities.foldl (fun w activity => (w.start other activity).2) w) := by
  have hstarted := List.foldlRecOn (motive := fun w' : World =>
    Course home w [] w' ∧ w'.containers = w.containers) activities
    (fun w activity => (w.start other activity).2) ⟨.refl, rfl⟩ ?_
  · exact hstarted.1
  · rintro w' ⟨course, hcontainers⟩ activity _
    refine ⟨course.act (.start other activity ?_ fun hother => absurd hother apart), hcontainers⟩
    rw [hcontainers]
    exact placed

theorem size_drop (w : World) : w.drop.containers.size = w.containers.size := by
  unfold drop
  split
  · rfl
  · exact (turnContinues_release _ _).size

theorem scriptAct_found (apart : home ≠ w.containers.size) (c : Container) :
    ScriptAct home w (w.found c).2 := by
  refine .elsewhere ⟨rfl, ?_, ?_, fun _ => Nat.le_refl _, w.link.backend.failNext, rfl⟩
  · rw [found, Array.size_push]
    exact Nat.le_succ _
  · rw [container, found, container, Array.getD_eq_getD_getElem?, Array.getD_eq_getD_getElem?,
      Array.getElem?_push, if_neg apart]

theorem restore_eq_ok {config : Config} (h : w.restore home config = .ok w') :
    w' = (w.call home
      (.opening (Container.beginOpen config w.wall w.link.backend.scan) .ready)).2 := by
  unfold restore at h
  split at h
  · cases h
  · rename_i records hscan
    have hall : records = w.link.backend.scan := by
      unfold scanned at hscan
      dsimp only at hscan
      split at hscan
      · split at hscan
        · cases hscan
        · exact (Except.ok.inj hscan).symm
      · exact (Except.ok.inj hscan).symm
    rw [← Except.ok.inj h, hall]

/-- While a container is watched the script may let go of it and open others. -/
theorem course_openContainer (hl : w.OneTurnEach) (config : Config) (persistent : Bool)
    (apart : home ≠ w.containers.size) :
    ∃ calls, Course home w calls (w.openContainer config persistent).2 := by
  have hdrop := course_drop home w
  have hfound := hdrop.act (scriptAct_found ((size_drop w).symm ▸ apart) (.create config persistent))
  have hplaced :
      w.drop.containers.size < (w.drop.found (.create config persistent)).2.containers.size := by
    rw [found, Array.size_push]
    exact Nat.lt_succ_self _
  have hapart : w.drop.containers.size ≠ home := (size_drop w).symm ▸ Ne.symm apart
  unfold openContainer
  dsimp only
  split
  · exact ⟨_, hdrop⟩
  · split
    · exact ⟨_, hfound⟩
    · rename_i w' hrestored
      have hrestore : ∃ calls, Course home (w.drop.found (.create config persistent)).2 calls w' := by
        split at hrestored
        · rw [restore_eq_ok hrestored]
          exact course_call hplaced fun hother => absurd hother hapart
        · obtain rfl := Except.ok.inj hrestored
          exact ⟨[], .refl⟩
      obtain ⟨calls, hcourse⟩ := hrestore
      have hkept := hcourse.size_le (hfound.oneTurnEach hl)
      have hstarted := (hfound.trans hcourse).trans
        (course_foldl_start (Nat.lt_of_lt_of_le hplaced hkept) hapart (background persistent))
      exact ⟨_, hstarted.act (.elsewhere (doesNothingAt_set home _ _ _ _))⟩

theorem tasksPlaced_openContainer (hl : w.OneTurnEach) (tasksPlaced : w.TasksPlaced) (config : Config)
    (persistent : Bool) :
    (w.openContainer config persistent).2.OneTurnEach ∧
      (w.openContainer config persistent).2.TasksPlaced := by
  -- What is watched is a place that stays empty.
  have hapart : w.containers.size + 1 ≠ w.containers.size := Nat.succ_ne_self _
  obtain ⟨calls, course⟩ := course_openContainer hl config persistent hapart
  exact ⟨course.oneTurnEach hl, course.tasksPlaced hl tasksPlaced⟩

end World

end DistinctCount.Schedule
