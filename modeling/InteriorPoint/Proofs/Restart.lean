import InteriorPoint.Method.View
import InteriorPoint.Proofs.Protocol
import InteriorPoint.Proofs.StoppingTest

/-! Every solve starts over. Whatever a solver holds, its first pass reads nothing of it but the
point that it was set to: Jacobian, binding, factors, residual and direction are written before they
are read. So two solvers that solve the same program go through the same states from then on.
-/

namespace InteriorPoint

variable {α σ ε τ : Type} {engine : Engine α σ} {m n : Nat}

-----------------------------------------------------------------------------------------
-- What is left of an earlier solve
-----------------------------------------------------------------------------------------

/-- Binding forgets what the backend was bound to before, unless the engine remembers. -/
theorem Backend.attach_congr [Subsingleton σ] (b other : Backend engine τ) (target : τ)
    (rows cols : Nat) (symmetric verbose timing : Bool)
    : (b.attach target rows cols symmetric verbose timing).result
        = (other.attach target rows cols symmetric verbose timing).result
      ∧ ((b.attach target rows cols symmetric verbose timing).result = .ok () →
          (b.attach target rows cols symmetric verbose timing).backend
          = (other.attach target rows cols symmetric verbose timing).backend) := by
  simp only [attach]
  split
  · refine ⟨rfl, ?_⟩
    rintro ⟨⟩
  · refine ⟨rfl, fun _ => ?_⟩
    rw [Backend.mk.injEq]
    exact ⟨Subsingleton.elim .., rfl, rfl, rfl, rfl⟩

/-- Assembly discards what the Jacobian held before. -/
theorem LinearProgram.assemble_congr [One α] (p : LinearProgram α m n) (y : Blocks α m n)
    {t other : Triplet α (n + m + n) (n + m + n)} (capacity : t.capacity = other.capacity)
    : p.assemble y t = p.assemble y other := by
  have emptied : t.start = other.start := by
    rw [Triplet.start, Triplet.start, capacity]
  rw [assemble, assemble, emptied]

namespace State

theorem read_congr {st other : State engine m n} (jacobian : st.jacobian = other.jacobian)
    : st.read = other.read := by
  funext target
  cases target with
  | jacobian => rw [read, read, jacobian]
  | other matrix => rfl

theorem factorize_congr {st other : State engine m n} (jacobian : st.jacobian = other.jacobian)
    {backend held : Backend engine (Target α)} (same : backend = held)
    : ({ st with backend }.factorize).1 = ({ other with backend := held }.factorize).1
      ∧ ({ st with backend }.factorize).2.1.backend
        = ({ other with backend := held }.factorize).2.1.backend := by
  subst same
  have reads : State.read { st with backend } = State.read { other with backend } :=
    read_congr jacobian
  simp only [factorize, reads, and_self]

/-- The first pass prepares a backend that depends on the Jacobian alone. -/
theorem prepare_congr [Subsingleton σ] {st next : State engine m n} {timing : Bool}
    {result : Except BackendError Unit} {notices : List Notice}
    (h : st.prepare 0 timing = (result, next, notices)) (other : State engine m n)
    (jacobian : st.jacobian = other.jacobian)
    : ∃ held more,
        other.prepare 0 timing = (result, { other with backend := held }, more)
        ∧ (result = .ok () → held = next.backend) := by
  obtain ⟨results, backends⟩ := st.backend.attach_congr other.backend Target.jacobian (n + m + n)
    (n + m + n) false false timing
  simp only [prepare, attach, if_true] at h ⊢
  rw [← results]
  split at h
  · next e failed =>
      obtain ⟨rfl, -⟩ := Prod.mk.inj h
      exact ⟨_, _, rfl, by rintro ⟨⟩⟩
  · next accepted =>
      have factored := factorize_congr jacobian (backends accepted)
      obtain ⟨rfl, rest⟩ := Prod.mk.inj h
      obtain ⟨rfl, -⟩ := Prod.mk.inj rest
      exact ⟨_, _, Prod.ext factored.1.symm rfl, fun _ => factored.2.symm⟩

-----------------------------------------------------------------------------------------
-- The first pass, side by side
-----------------------------------------------------------------------------------------

/-- What a solve leaves to be seen is the same in two solvers: where they are, what they noted and
how far they counted.
-/
structure Alike (st other : State engine m n) : Prop where
  point : st.point = other.point
  history : st.history = other.history
  iterations : st.iterations = other.iterations

section Step

variable [Zero α] [Sub α] [LE α] [DecidableLE α]

/-- A solve for the direction does not read the direction of before. -/
theorem solveDirection_congr {st next : State engine m n} {result : Except BackendError Unit}
    {notices : List Notice} (direction : Blocks α m n)
    (h : st.solveDirection = (result, next, notices))
    : ∃ after,
        { st with direction }.solveDirection = (result, after, notices)
        ∧ next.Alike after
        ∧ (result = .ok () → after = next) := by
  simp only [solveDirection] at h ⊢
  split at h
  · obtain ⟨rfl, rest⟩ := Prod.mk.inj h
    obtain ⟨rfl, rfl⟩ := Prod.mk.inj rest
    exact ⟨_, rfl, ⟨rfl, rfl, rfl⟩, by rintro ⟨⟩⟩
  · obtain ⟨rfl, rest⟩ := Prod.mk.inj h
    obtain ⟨rfl, rfl⟩ := Prod.mk.inj rest
    exact ⟨_, rfl, ⟨rfl, rfl, rfl⟩, fun _ => rfl⟩

variable [One α] [Add α] [Mul α] [Div α] [NatCast α] [LT α] [DecidableLT α]

/-- Neither does a step. -/
theorem step_congr {st next : State engine m n} {mu : α} {result : Except StepFault (Step α)}
    {notices : List Notice} (direction : Blocks α m n)
    (h : st.step mu = (result, next, notices))
    : ∃ after,
        { st with direction }.step mu = (result, after, notices)
        ∧ next.Alike after
        ∧ (result.isOk → after = next) := by
  cases solved : st.solveDirection with
  | mk first rest =>
      obtain ⟨predicted, told⟩ := rest
      obtain ⟨after, same, alike, equal⟩ := solveDirection_congr direction solved
      cases first with
      | error e =>
          simp only [step, solved] at h
          obtain ⟨rfl, rest⟩ := Prod.mk.inj h
          obtain ⟨rfl, rfl⟩ := Prod.mk.inj rest
          exact ⟨after, by simp only [step, same], alike, by rintro ⟨⟩⟩
      | ok =>
          -- From here on both steps are the same.
          obtain rfl := equal rfl
          have same_step : { st with direction }.step mu = st.step mu := by
            rw [step, step, same, solved]
          exact ⟨next, same_step.trans h, ⟨rfl, rfl, rfl⟩, fun _ => rfl⟩

end Step

variable [Zero α] [One α] [Add α] [Sub α] [Mul α] [Div α] [Neg α] [NatCast α] [LT α] [LE α]
  [DecidableLT α] [DecidableLE α] {p : LinearProgram α m n} {config : Config α}
  {watch : Watch α ε m n} {st other next : State engine m n} {outcome : Pass α ε}
  {events : List (Event α m n)}

omit [Zero α] [Add α] [Sub α] [Mul α] [Div α] [Neg α] [NatCast α] [LT α] [LE α]
  [DecidableLT α] [DecidableLE α] in
/-- Two solvers at one point, with the same residual, make the same of Jacobian and backend in
their first pass; the direction is all that can differ then.
-/
theorem Alike.prepare [Subsingleton σ] {jacobian : Triplet α (n + m + n) (n + m + n)}
    {timing : Bool} {result : Except BackendError Unit} {notices : List Notice}
    (alike : st.Alike other) (residual : st.residual = other.residual)
    (capacity : st.jacobian.capacity = other.jacobian.capacity)
    (assembled : p.assemble st.point st.jacobian = .ok jacobian)
    (prepared : { st with jacobian }.prepare 0 timing = (result, next, notices))
    : p.assemble other.point other.jacobian = .ok jacobian
      ∧ ∃ ready more,
          { other with jacobian }.prepare 0 timing = (result, ready, more)
          ∧ next.Alike ready
          ∧ (result = .ok () → ready = { next with direction := other.direction }) := by
  obtain ⟨held, more, same, backends⟩ := prepare_congr prepared { other with jacobian } rfl
  refine ⟨?_, _, more, same, ?_, fun done => ?_⟩
  · rw [← alike.point, ← p.assemble_congr st.point capacity, assembled]
  · rw [prepare_leaves prepared]
    exact ⟨alike.point, alike.history, alike.iterations⟩
  · rw [backends done, prepare_leaves prepared]
    simp only [alike.point, alike.history, alike.iterations, residual]

omit [Neg α] in
/-- The first pass of two solvers at one point goes through the same phases, and once it has taken
its step there is no difference left between them.
-/
theorem Alike.advance [Subsingleton σ] (alike : st.Alike other)
    (residual : st.residual = other.residual)
    (capacity : st.jacobian.capacity = other.jacobian.capacity) {record : Record α}
    (first : record.iteration = 0) (h : st.advance p watch record = (outcome, next, events))
    : ∃ after more,
        other.advance p watch record = (outcome, after, more)
        ∧ next.Alike after
        ∧ ∀ gap, outcome = .stepped gap → after = next := by
  rcases advance_phases h with ⟨fault, refused, rfl, rfl, _⟩
    | ⟨jacobian, e, notices, assembled, prepared, rfl, _⟩
    | ⟨jacobian, ready, fault, one, two, assembled, prepared, failed, rfl, _⟩
    | ⟨jacobian, ready, moved, taken, one, two, assembled, prepared, stepped, rfl, told, _⟩
  · rw [alike.point, p.assemble_congr other.point capacity] at refused
    refine ⟨other, [], ?_, alike, by rintro _ ⟨⟩⟩
    simp only [State.advance, updateJacobian, refused, Except.map]
  · rw [first] at prepared
    obtain ⟨assembles, ready, more, same, like, -⟩ :=
      alike.prepare residual capacity assembled prepared
    refine ⟨ready, more.map .notice, ?_, like, by rintro _ ⟨⟩⟩
    simp only [State.advance, updateJacobian, assembles, Except.map, first, same]
  · rw [first] at prepared
    obtain ⟨assembles, _, more, same, -, equal⟩ :=
      alike.prepare residual capacity assembled prepared
    obtain rfl := equal rfl
    obtain ⟨after, fails, like, -⟩ := step_congr other.direction failed
    refine ⟨after, (more ++ two).map .notice, ?_, like, by rintro _ ⟨⟩⟩
    simp only [State.advance, updateJacobian, assembles, Except.map, first, same, fails]
  · rw [first] at prepared
    obtain ⟨assembles, _, more, same, -, equal⟩ :=
      alike.prepare residual capacity assembled prepared
    obtain rfl := equal rfl
    obtain ⟨after, steps, -, same_after⟩ := step_congr other.direction stepped
    obtain rfl := same_after rfl
    rw [← first] at same
    let seen := (watch.observe { record with step := some taken } after.point).2
    refine ⟨_, (more ++ two).map .notice ++ seen, ?_, ⟨rfl, rfl, rfl⟩, fun _ _ => rfl⟩
    cases answer : (watch.observe { record with step := some taken } after.point).1 <;>
      simp only [State.advance, updateJacobian, assembles, Except.map, same, steps, told, answer,
        seen]

/-- A pass in terms of the record of its point and of the test there. -/
theorem pass_eq (st : State engine m n) (k : Nat)
    : st.pass p config watch k
      = let record := p.recordOf k st.point
        let noted : State engine m n := { st with
          residual := p.residual st.point
          history := st.history.push record }
        let shown := if watch.verbose then [.row k record.objective record.gap] else []
        let told := watch.observe record st.point
        let advanced := noted.advance p watch record
        if p.stopsAt config st.point then
          (.ended (match told.1 with
            | .ok () => .accepted
            | .error e => .interrupted e), { noted with iterations := k }, shown ++ told.2)
        else (advanced.1, advanced.2.1, shown ++ advanced.2.2) :=
  rfl

/-- The first pass does the same in two solvers at one point. If it accepts that, both report the
same, and if it takes a step, there is no difference left.
-/
theorem Alike.pass [Subsingleton σ] (alike : st.Alike other)
    (capacity : st.jacobian.capacity = other.jacobian.capacity)
    (h : st.pass p config watch 0 = (outcome, next, events))
    : ∃ after more,
        other.pass p config watch 0 = (outcome, after, more)
        ∧ next.Alike after
        ∧ (outcome = .ended .accepted → next.result p = after.result p)
        ∧ ∀ gap, outcome = .stepped gap → after = next := by
  obtain ⟨point, history, iterations⟩ := alike
  rw [pass_eq] at h ⊢
  rw [← point, ← history]
  cases stops : p.stopsAt config st.point with
  | true =>
      simp only [stops, if_true] at h ⊢
      obtain ⟨rfl, rest⟩ := Prod.mk.inj h
      obtain ⟨rfl, -⟩ := Prod.mk.inj rest
      exact ⟨_, _, rfl, ⟨rfl, rfl, rfl⟩, fun _ => rfl, by rintro _ ⟨⟩⟩
  | false =>
      simp only [stops, Bool.false_eq_true, if_false] at h ⊢
      obtain ⟨rfl, rest⟩ := Prod.mk.inj h
      obtain ⟨rfl, -⟩ := Prod.mk.inj rest
      let noted : State engine m n := { st with
        residual := p.residual st.point
        history := st.history.push (p.recordOf 0 st.point) }
      let other_noted : State engine m n := { other with
        point := st.point
        residual := p.residual st.point
        history := st.history.push (p.recordOf 0 st.point) }
      have alike : noted.Alike other_noted := ⟨rfl, rfl, iterations⟩
      have advanced
          : noted.advance p watch (p.recordOf 0 st.point)
            = ((noted.advance p watch (p.recordOf 0 st.point)).1,
                (noted.advance p watch (p.recordOf 0 st.point)).2.1,
                (noted.advance p watch (p.recordOf 0 st.point)).2.2) :=
        rfl
      obtain ⟨after, more, same, like, equal⟩ := alike.advance rfl capacity rfl advanced
      let shown : List (Event α m n) :=
        if watch.verbose then [.row 0 (p.recordOf 0 st.point).objective (p.recordOf 0 st.point).gap]
        else []
      have whole := congrArg (fun result => (result.1, result.2.1, shown ++ result.2.2)) same
      refine ⟨after, shown ++ more, whole, like, fun accepted => ?_, equal⟩
      exact (advance_ne_accepted p watch _ _ accepted).elim

-----------------------------------------------------------------------------------------
-- The whole solve, side by side
-----------------------------------------------------------------------------------------

/-- Two runs from one point end alike, and with the same report if they end with one. -/
theorem Alike.passes [Subsingleton σ] (p : LinearProgram α m n) (config : Config α)
    (watch : Watch α ε m n) (alike : st.Alike other)
    (capacity : st.jacobian.capacity = other.jacobian.capacity) (limit : Nat) (last : Option α)
    (seen : Array (Event α m n))
    : (st.passes p config watch limit 0 last seen).1
        = (other.passes p config watch limit 0 last seen).1
      ∧ (st.passes p config watch limit 0 last seen).2.1.Alike
          (other.passes p config watch limit 0 last seen).2.1
      ∧ ((st.passes p config watch limit 0 last seen).1 = .accepted →
          (st.passes p config watch limit 0 last seen).2.1.result p
          = (other.passes p config watch limit 0 last seen).2.1.result p) := by
  cases limit with
  | zero =>
      refine ⟨rfl, alike, ?_⟩
      rintro ⟨⟩
  | succ limit =>
      cases passed : st.pass p config watch 0 with
      | mk outcome rest =>
          obtain ⟨next, events⟩ := rest
          obtain ⟨after, more, same, like, report, equal⟩ := alike.pass capacity passed
          rw [State.passes, State.passes, passed, same]
          cases outcome with
          | ended how => exact ⟨rfl, like, fun accepted => report (congrArg _ accepted)⟩
          | stepped gap =>
              obtain rfl := equal gap rfl
              obtain ⟨ends, states⟩ := after.passes_seen p config watch limit 1 (some gap)
                (seen ++ events.toArray) (seen ++ more.toArray)
              rw [ends, states]
              exact ⟨rfl, ⟨rfl, rfl, rfl⟩, fun _ => rfl⟩

/-- Two solves of one program end alike, whatever the solvers hold, if there is equal room for the
Jacobian and the engine keeps nothing between its calls.
-/
theorem solve_congr [PivotSplit α] [Subsingleton σ] (p : LinearProgram α m n)
    (config : Config α) (watch : Watch α ε m n) {st other : State engine m n}
    (capacity : st.jacobian.capacity = other.jacobian.capacity)
    : (st.solve p config watch).1 = (other.solve p config watch).1
      ∧ (st.solve p config watch).2.1.history = (other.solve p config watch).2.1.history
      ∧ (st.solve p config watch).2.1.iterations = (other.solve p config watch).2.1.iterations
      ∧ ∀ y,
          p.startingPoint = .ok y →
          (st.solve p config watch).2.1.point = (other.solve p config watch).2.1.point := by
  cases start : p.startingPoint with
  | error fault =>
      rw [solve_unstarted start, solve_unstarted start]
      simp
  | ok y =>
      have alike : (st.startedAt y).Alike (other.startedAt y) := ⟨rfl, rfl, rfl⟩
      have same := alike.passes p config watch capacity config.iterationLimit none
        (if watch.verbose then #[.header] else #[])
      rw [solve_eq_conclude start, solve_eq_conclude start]
      dsimp only
      generalize (st.startedAt y).passes p config watch _ 0 none _ = run at same ⊢
      generalize (other.startedAt y).passes p config watch _ 0 none _ = other_run at same ⊢
      obtain ⟨how, next, seen⟩ := run
      obtain ⟨_, other_next, other_seen⟩ := other_run
      obtain ⟨rfl, like, report⟩ := same
      cases how with
      | accepted =>
          refine ⟨congrArg Ending.converged ?_, like.history, like.iterations, ?_⟩
          · exact report rfl
          · exact fun _ _ => like.point
      | exhausted gap => exact ⟨rfl, like.history, rfl, fun _ _ => like.point⟩
      | failed | interrupted => exact ⟨rfl, like.history, like.iterations, fun _ _ => like.point⟩

-----------------------------------------------------------------------------------------
-- What a solver can have been through
-----------------------------------------------------------------------------------------

/-- The states that a solver of a program can be in: set up, and then taken through phases, writes
to its views, edits of its Jacobian, uses of its backend and solves, in any order and whether they
succeed or not.
-/
inductive Reached [PivotSplit α] (p : LinearProgram α m n) : State engine m n → Prop
  | initial (backend : Backend engine (Target α)) : Reached p (.initial p backend)
  | started {st next : State engine m n} (before : Reached p st) (done : st.toStart p = .ok next)
    : Reached p next
  | updatedResidual {st : State engine m n} (before : Reached p st)
    : Reached p (st.updateResidual p)
  | updatedJacobian {st next : State engine m n} (before : Reached p st)
    (done : st.updateJacobian p = .ok next)
    : Reached p next
  | edited {st : State engine m n} {jacobian : Triplet α (n + m + n) (n + m + n)}
    (before : Reached p st) (command : Triplet.Command α)
    (done : st.jacobian.apply command = .ok jacobian)
    : Reached p { st with jacobian }
  | written {st next : State engine m n} (before : Reached p st) (view : View) (values : Tensor α)
    (done : st.write view values = .ok next)
    : Reached p next
  | used {st : State engine m n} (before : Reached p st) (backend : Backend engine (Target α))
    : Reached p { st with backend }
  | stepped {st : State engine m n} (before : Reached p st) (mu : α) : Reached p (st.step mu).2.1
  | solved {ε : Type} {st : State engine m n} (before : Reached p st) (config : Config α)
    (watch : Watch α ε m n)
    : Reached p (st.solve p config watch).2.1

omit [Zero α] [One α] [Add α] [Sub α] [Mul α] [Div α] [Neg α] [NatCast α] [LT α] [LE α]
  [DecidableLT α] [DecidableLE α] in
/-- No view leads to the Jacobian. -/
theorem jacobian_write {view : View} {values : Tensor α} (done : st.write view values = .ok next)
    : next.jacobian = st.jacobian := by
  simp only [write] at done
  split at done
  · obtain ⟨point, -, rfl⟩ := map_ok done
    rfl
  · obtain ⟨direction, -, rfl⟩ := map_ok done
    rfl
  · obtain ⟨residual, -, rfl⟩ := map_ok done
    rfl

/-- A pass leaves the Jacobian or assembles it anew. -/
theorem holdsJacobian_pass {k : Nat} (held : p.HoldsJacobian st.jacobian)
    (h : st.pass p config watch k = (outcome, next, events))
    : p.HoldsJacobian next.jacobian := by
  obtain ⟨_, _, _, _, ⟨_, rfl, _⟩ | ⟨_, advanced⟩⟩ := pass_phases h
  · exact held
  · rcases advanced with ⟨_, _, _, rfl, _⟩ | ⟨_, _, _, assembled, prepared, _⟩
      | ⟨_, _, _, _, _, assembled, prepared, failed, _⟩
      | ⟨_, _, _, _, _, _, assembled, prepared, moved, rfl, _⟩
    · exact held
    · rw [prepare_leaves prepared]
      exact held.assembled _ assembled
    · rw [step_leaves failed, prepare_leaves prepared]
      exact held.assembled _ assembled
    · rw [step_leaves moved, prepare_leaves prepared]
      exact held.assembled _ assembled

/-- So does a solve. -/
theorem holdsJacobian_solve [PivotSplit α] (held : p.HoldsJacobian st.jacobian)
    (config : Config α) (watch : Watch α ε m n)
    : p.HoldsJacobian (st.solve p config watch).2.1.jacobian := by
  cases start : p.startingPoint with
  | error fault =>
      rw [solve_unstarted start]
      exact held
  | ok y =>
      have run (seen : Array (Event α m n))
          : p.HoldsJacobian
              ((st.startedAt y).passes p config watch config.iterationLimit 0 none
                seen).2.1.jacobian :=
        passes_induction (fun _ now => p.HoldsJacobian now.jacobian)
          (fun _ now => p.HoldsJacobian now.jacobian)
          (fun _ _ _ _ _ held passed => holdsJacobian_pass held passed)
          (fun _ _ _ _ _ held passed => holdsJacobian_pass held passed)
          config.iterationLimit held (fun _ _ held => held)
      rw [solve_eq_conclude start]
      have last := run (if watch.verbose then #[.header] else #[])
      generalize (st.startedAt y).passes p config watch _ 0 none _ = ended at last ⊢
      obtain ⟨how, now, seen⟩ := ended
      cases how <;> exact last

/-- Whatever a solver has been through, its Jacobian is one that a solver can hold. -/
theorem Reached.holdsJacobian [PivotSplit α] (reached : st.Reached p)
    : p.HoldsJacobian st.jacobian := by
  induction reached with
  | initial => exact .empty
  | started _ done held =>
      obtain ⟨point, -, rfl⟩ := map_ok done
      exact held
  | updatedResidual _ held => exact held
  | updatedJacobian _ done held =>
      obtain ⟨jacobian, assembled, rfl⟩ := map_ok done
      exact held.assembled _ assembled
  | edited _ command done held => exact held.edited command done
  | written _ view values done held => rwa [jacobian_write done]
  | used _ backend held => exact held
  | @stepped now _ mu held =>
      rw [show (now.step mu).2.1.jacobian = now.jacobian by rw [step_leaves (Prod.eta _).symm]]
      exact held
  | solved _ config watch held => exact holdsJacobian_solve held config watch

/-- Every solve starts over. Whatever two solvers of a program have been through, with one of the
direct engines, they end alike, with equal histories, and at the same point if there is a starting
point.
-/
theorem solve_restarts [PivotSplit α] (kind : Direct) (p : LinearProgram α m n)
    (config : Config α) (watch : Watch α ε m n) {st other : State (kind.engine (α := α)) m n}
    (reached : st.Reached p) (other_reached : other.Reached p)
    : (st.solve p config watch).1 = (other.solve p config watch).1
      ∧ (st.solve p config watch).2.1.history = (other.solve p config watch).2.1.history
      ∧ (st.solve p config watch).2.1.iterations = (other.solve p config watch).2.1.iterations
      ∧ ∀ y,
          p.startingPoint = .ok y →
          (st.solve p config watch).2.1.point = (other.solve p config watch).2.1.point := by
  refine solve_congr p config watch ?_
  rw [reached.holdsJacobian.capacity_eq, other_reached.holdsJacobian.capacity_eq]

/-- The solver of the sample program after a solve, with its backend bound to another matrix. -/
def sampleUsed : State (Direct.engine .dense : Engine ℚ Unit) 1 2 :=
  { (sample.solve .sample .sample (.silent : Watch ℚ Empty 1 2)).2.1 with
    backend := ⟨(), .bound (.other ⟨1, ⟨1, [⟨.last 0, .last 0, 2⟩]⟩⟩), true, true, true⟩ }

theorem solve_restarts_used
    : sampleUsed.Reached .sample
      ∧ sample.Reached .sample
      ∧ (sampleUsed.solve .sample .sample (.silent : Watch ℚ Empty 1 2)).1
        = (sample.solve .sample .sample .silent).1
      ∧ (sampleUsed.solve .sample .sample (.silent : Watch ℚ Empty 1 2)).2.1.history
        = (sample.solve .sample .sample (.silent : Watch ℚ Empty 1 2)).2.1.history
      ∧ ∃ y,
          LinearProgram.sample.startingPoint = .ok y
          ∧ (sampleUsed.solve .sample .sample (.silent : Watch ℚ Empty 1 2)).2.1.point
            = (sample.solve .sample .sample (.silent : Watch ℚ Empty 1 2)).2.1.point := by
  have fresh : sample.Reached .sample := .initial _
  have used : sampleUsed.Reached .sample := .used (.solved fresh .sample .silent) _
  obtain ⟨y, start⟩ := exists_ok (x := LinearProgram.sample.startingPoint) (by decide +kernel)
  obtain ⟨ending, history, -, point⟩ :=
    solve_restarts .dense .sample .sample (.silent : Watch ℚ Empty 1 2) used fresh
  exact ⟨used, fresh, ending, history, y, start, point y start⟩

end State

end InteriorPoint
