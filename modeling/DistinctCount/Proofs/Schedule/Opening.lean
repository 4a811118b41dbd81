import DistinctCount.Proofs.System.Opening
import DistinctCount.Schedule.Run

namespace DistinctCount.Schedule.World

variable {w w' : World} {t : TaskId} {home : Home} {phase : Phase} {request : Request}

structure SameCalls (w w' : World) : Prop where
  link : w'.link = w.link
  calls : w'.calls = w.calls

theorem SameCalls.refl (w : World) : SameCalls w w :=
  ⟨rfl, rfl⟩

theorem SameCalls.trans {w'' : World} (h : SameCalls w w') (h' : SameCalls w' w'') : SameCalls w w'' :=
  ⟨h'.link.trans h.link, h'.calls.trans h.calls⟩

theorem sameCalls_wake (w : World) (t : TaskId) : SameCalls w (w.wake t) := by
  unfold wake
  split <;> exact ⟨rfl, rfl⟩

theorem sameCalls_wakeAll (w : World) (p : Task → Bool) : SameCalls w (w.wakeAll p) := by
  apply List.foldlRecOn (motive := SameCalls w) _ _ (.refl w)
  intro w' hsame t _
  split
  · exact hsame.trans (sameCalls_wake w' t)
  · exact hsame

theorem sameCalls_release (w : World) (home : Home) : SameCalls w (w.release home) := by
  unfold release
  dsimp only
  split
  · exact .refl w
  · have htold : SameCalls w (w.put home (w.container home).tellToStop) := ⟨rfl, rfl⟩
    exact htold.trans (sameCalls_wakeAll _ _)

theorem sameCalls_drop (w : World) : SameCalls w w.drop := by
  unfold drop
  split
  · exact .refl w
  · have hleft : SameCalls w { w with current := none } := ⟨rfl, rfl⟩
    exact hleft.trans (sameCalls_release _ _)

/-- A scan that breaks off ends the opening before the first call. -/
theorem openContainer_of_scan {config : Config} {e : BackendError} (hvalid : config.validate = .ok ())
    (hscan : w.scanned = .error e) :
    ∃ w', w.openContainer config true = (.error (.backend e), w') ∧ SameCalls w w' := by
  have hdrop : w.drop.scanned = .error e := by
    rw [scanned, (sameCalls_drop w).link]
    exact hscan
  refine ⟨(w.drop.found (.create config true)).2, ?_, (sameCalls_drop w).trans ⟨rfl, rfl⟩⟩
  have hrestore : (w.drop.found (.create config true)).2.restore
      (w.drop.found (.create config true)).1 config = .error (.backend e) := by
    unfold restore
    have : (w.drop.found (.create config true)).2.scanned = .error e := hdrop
    rw [this]
  unfold openContainer
  simp only [hvalid, if_true, hrestore]

theorem restore_of_scan (home : Home) (config : Config)
    (hall : ∀ limit ∈ w.link.scanLimit, w.link.backend.scan.length ≤ limit) :
    w.restore home config = .ok (w.call home
      (.opening (Container.beginOpen config w.wall w.link.backend.scan) .ready)).2 := by
  have hscan : w.scanned = .ok w.link.backend.scan := by
    unfold scanned
    cases hlimit : w.link.scanLimit with
    | none => rfl
    | some limit => exact if_neg (Nat.not_lt.2 (hall limit hlimit))
  rw [restore, hscan]

theorem sleep_cases (w : World) (t : TaskId) (due : Nat) :
    (∃ w', w.sleep t due = .error w' ∧ SameCalls w w') ∨
      ∃ w', w.sleep t due = .ok w' ∧ SameCalls w w' := by
  unfold sleep
  split
  · exact .inl ⟨_, rfl, rfl, rfl⟩
  · split
    · exact .inr ⟨_, rfl, rfl, rfl⟩
    · exact .inl ⟨_, rfl, rfl, rfl⟩

def WaitsOrCalls (w : World) (request : Request) (result : World × Except Phase Backend.Answer) : Prop :=
  (∃ w' phase, result = (w', .error phase) ∧ SameCalls w w') ∨
    ∃ w', SameCalls w w' ∧ result = ((w'.perform request).1, .ok (w'.perform request).2)

theorem WaitsOrCalls.after (h : SameCalls w w') {result : World × Except Phase Backend.Answer}
    (hc : w'.WaitsOrCalls request result) : w.WaitsOrCalls request result := by
  rcases hc with ⟨w'', phase, heq, hsame⟩ | ⟨w'', hsame, heq⟩
  · exact .inl ⟨w'', phase, heq, h.trans hsame⟩
  · exact .inr ⟨w'', h.trans hsame, heq⟩

theorem waitsOrCalls_arrive (w : World) (t : TaskId) (due : Nat) (request : Request) :
    w.WaitsOrCalls request (w.arrive t due request) := by
  unfold arrive
  rcases w.sleep_cases t due with ⟨w', heq, hsame⟩ | ⟨w', heq, hsame⟩
  · rw [heq]
    exact .inl ⟨w', _, rfl, hsame⟩
  · rw [heq]
    exact .inr ⟨w', hsame, rfl⟩

theorem waitsOrCalls_dispatch (w : World) (t : TaskId) (request : Request) :
    w.WaitsOrCalls request (w.dispatch t request) := by
  unfold dispatch
  split
  · exact .inr ⟨w, .refl w, rfl⟩
  · exact waitsOrCalls_arrive w t _ request

theorem waitsOrCalls_converse (w : World) (t : TaskId) (phase : Phase) (request : Request) :
    w.WaitsOrCalls request (w.converse t phase request) := by
  unfold converse
  cases phase with
  | ready => exact waitsOrCalls_dispatch w t request
  | calling due => exact waitsOrCalls_arrive w t due request
  | resting due =>
    rcases w.sleep_cases t due with ⟨w', heq, hsame⟩ | ⟨w', heq, hsame⟩
    · simp only [heq]
      exact .inl ⟨w', _, rfl, hsame⟩
    · simp only [heq]
      exact (waitsOrCalls_dispatch w' t request).after hsame

/-- An opening is over, or it waits, or its next call is made and it goes on after the answer. -/
theorem openingTurn_cases (w : World) (t : TaskId) (home : Home) (o : Container.Opening)
    (phase : Phase) :
    (o.request? = none ∧
      w.openingTurn t home o phase = .finish (w.put home o.container) .done) ∨
    (∃ w' phase', w.openingTurn t home o phase = .wait w' (.opening o phase') ∧ SameCalls w w') ∨
    ∃ request answer w' phase' time, o.request? = some request ∧
      w.openingTurn t home o phase = .again w' (.opening (o.proceed answer).2 phase') ∧
      (w'.link.backend, answer) = w.link.backend.perform request ∧
      w'.calls = { time, request, answer } :: w.calls := by
  unfold openingTurn
  cases hrequest : o.request? with
  | none => exact .inl ⟨rfl, rfl⟩
  | some request =>
    refine .inr ?_
    dsimp only
    rcases waitsOrCalls_converse w t phase request with ⟨w', phase', heq, hsame⟩ | ⟨w', hsame, heq⟩
    · rw [heq]
      exact .inl ⟨w', phase', rfl, hsame⟩
    · rw [heq]
      have hperform : ((w'.perform request).1.link.backend, (w'.perform request).2) =
          w.link.backend.perform request := by
        rw [← hsame.link]
        rfl
      have hcalls : (w'.perform request).1.calls =
          { time := w'.clock.now, request, answer := (w'.perform request).2 } :: w.calls := by
        rw [← hsame.calls]
        rfl
      refine .inr ⟨request, (w'.perform request).2, (w'.perform request).1, ?_⟩
      cases hnext : o.proceed (w'.perform request).2 with
      | mk pause next =>
        cases pause with
        | none => exact ⟨.ready, _, rfl, by simp only [hnext], hperform, hcalls⟩
        | some pause =>
          exact ⟨(w'.perform request).1.rest pause, _, rfl, by simp only [hnext], hperform, hcalls⟩

theorem container_congr (containers : w'.containers = w.containers) (home : Home) :
    w'.container home = w.container home := by
  rw [container, containers, container]

theorem container_put (placed : home < w.containers.size) (c : Container) :
    (w.put home c).container home = c := by
  simp [put, container, placed]

def made (calls : List Call) : List (Request × Backend.Answer) :=
  calls.reverse.map fun call => (call.request, call.answer)

/--
The turns of an opening to its end, with the calls made in them and the container that it puts in place.
Between two turns anything may happen.
-/
inductive Turns (t : TaskId) (home : Home) :
    Container.Opening → Phase → List (Request × Backend.Answer) → Container → Prop
  | finish {w w' : World} {o : Container.Opening} {phase : Phase} {reply : Reply} {new : List Call}
    (placed : home < w.containers.size) (turn : w.openingTurn t home o phase = .finish w' reply)
    (calls : w'.calls = new ++ w.calls) : Turns t home o phase (made new) (w'.container home)
  | wait {w w' : World} {o o' : Container.Opening} {phase phase' : Phase} {new : List Call}
    {later : List (Request × Backend.Answer)} {c : Container}
    (turn : w.openingTurn t home o phase = .wait w' (.opening o' phase'))
    (calls : w'.calls = new ++ w.calls) (rest : Turns t home o' phase' later c) :
    Turns t home o phase (made new ++ later) c
  | again {w w' : World} {o o' : Container.Opening} {phase phase' : Phase} {new : List Call}
    {later : List (Request × Backend.Answer)} {c : Container}
    (turn : w.openingTurn t home o phase = .again w' (.opening o' phase'))
    (calls : w'.calls = new ++ w.calls) (rest : Turns t home o' phase' later c) :
    Turns t home o phase (made new ++ later) c

/-- An opening makes the calls that its state asks for and no others. -/
theorem Turns.opens {o : Container.Opening} {calls : List (Request × Backend.Answer)} {c : Container}
    (h : Turns t home o phase calls c) : Opens o calls c := by
  induction h with
  | @finish w w' o phase reply new placed turn calls =>
    rcases w.openingTurn_cases t home o phase with ⟨hnone, heq⟩ | ⟨_, _, heq, -⟩ |
      ⟨_, _, _, _, _, -, heq, -⟩
    · obtain ⟨rfl, -⟩ := Turn.finish.inj (turn.symm.trans heq)
      obtain rfl : new = [] := List.append_left_eq_self.1 calls.symm
      rw [container_put placed]
      exact .done hnone
    · cases turn.symm.trans heq
    · cases turn.symm.trans heq
  | @wait w w' o o' phase phase' new later c turn calls rest ih =>
    rcases w.openingTurn_cases t home o phase with ⟨-, heq⟩ | ⟨w₁, phase₁, heq, hsame⟩ |
      ⟨_, _, _, _, _, -, heq, -⟩
    · cases turn.symm.trans heq
    · obtain ⟨rfl, hactivity⟩ := Turn.wait.inj (turn.symm.trans heq)
      obtain ⟨rfl, -⟩ := Activity.opening.inj hactivity
      obtain rfl : new = [] := List.append_left_eq_self.1 (calls.symm.trans hsame.calls)
      exact ih
    · cases turn.symm.trans heq
  | @again w w' o o' phase phase' new later c turn calls rest ih =>
    rcases w.openingTurn_cases t home o phase with ⟨-, heq⟩ | ⟨_, _, heq, -⟩ |
      ⟨request, answer, w₁, phase₁, time, hrequest, heq, -, hcalls⟩
    · cases turn.symm.trans heq
    · cases turn.symm.trans heq
    · obtain ⟨rfl, hactivity⟩ := Turn.again.inj (turn.symm.trans heq)
      obtain ⟨rfl, -⟩ := Activity.opening.inj hactivity
      obtain rfl : new = [{ time, request, answer }] :=
        List.append_cancel_right (calls.symm.trans hcalls)
      exact .step hrequest ih

end DistinctCount.Schedule.World
