import InteriorPoint.CommandLine.Run
import InteriorPoint.Proofs.BalanceDivisors
import InteriorPoint.Proofs.Overflow
import InteriorPoint.Proofs.NearOptimality
import InteriorPoint.Proofs.Release

/-! How a command ends once it has got its problem. Setting up fails with faults of one kind, and a
solve with faults of three kinds, all of which are reported. Two things escape: right sides of the
normal equations that are not finite, and overflows of the centering parameter.
-/

namespace InteriorPoint

-----------------------------------------------------------------------------------------
-- Setting up
-----------------------------------------------------------------------------------------

namespace Posed

variable {settings : Setting.Value} {fault : SetupFault}

/-- Of vectors that are lists of doubles, only the settings and the dimensions are refused. -/
theorem ofSparse_kind {a : Sparse Float} {b c : List Float}
    (refused : ofSparse a b c settings = .error fault)
    : fault.kind = .config := by
  rcases bind_error refused with unread | ⟨config, -, refused⟩
  · obtain ⟨fault, -, rfl⟩ := mapError_error unread
    exact fault.kind_eq
  · rcases bind_error refused with misfit | ⟨program, -, done⟩
    · obtain ⟨_, -, rfl⟩ := mapError_error misfit
      rfl
    · cases done

/-- So it is for a matrix of any form, vectors that are arrays and any engine that is asked for. -/
theorem withEngine_kind {a : MatrixSource Float} {inside : a.IsInside} {b c : Nested Float}
    {engine : Setting.Value} {rightSide cost : Tensor Float} (hb : b.tensor = .ok rightSide)
    (hc : c.tensor = .ok cost) (refused : withEngine a inside b c settings engine = .error fault)
    : fault.kind = .config := by
  rcases bind_error refused with unposed | ⟨posed, -, unknown⟩
  · rw [Posed.of, hb, hc] at unposed
    change (if rightSide.rank ≠ 1 ∨ cost.rank ≠ 1 then _ else _) = _ at unposed
    split at unposed
    · cases unposed
      rfl
    · rcases bind_error unposed with matrix | ⟨_, -, unposed⟩
      · obtain ⟨_, -, rfl⟩ := mapError_error matrix
        rfl
      · exact ofSparse_kind unposed
  · split at unknown
    · cases unknown
    · cases unknown
      rfl

/-- A program that was set up has a column. -/
theorem cols_pos_of_ofSparse {a : Sparse Float} {b c : List Float} {posed : Posed}
    (set_up : ofSparse a b c settings = .ok posed)
    : 0 < posed.program.cols := by
  obtain ⟨_, -, rest⟩ := bind_ok set_up
  obtain ⟨program, put, done⟩ := bind_ok rest
  cases done
  exact (AnyProgram.pos_of_ok (mapError_ok put)).2

end Posed

-----------------------------------------------------------------------------------------
-- The starting point
-----------------------------------------------------------------------------------------

section Start

variable {α : Type} [Zero α] [One α] [Add α] [Sub α] [Mul α] [Div α] [Neg α] [NatCast α] [LT α]
  [LE α] [DecidableLT α] [DecidableLE α] {m n : Nat}

namespace Definite

omit [One α] [Neg α] [NatCast α] in
/-- A matrix that cannot be factored is one fault, and the right sides are another. -/
theorem solvePair_kind [PivotSplit α] {a : Grid α n n} {b c : Vector α n} {fault : Fault}
    (h : solvePair a b c = .error fault)
    : fault = .rightSideNotFinite ∨ fault.kind = .factorization := by
  simp only [solvePair] at h
  split at h
  · split at h
    · obtain rfl := Except.error.inj h
      exact .inr rfl
    · split at h
      · cases h
      · exact .inl (Except.error.inj h).symm
  · obtain rfl := Except.error.inj h
    exact .inr rfl

end Definite

namespace LinearProgram

/-- The normal matrix is finite and can be factored, but of the right side of the program and the
product of matrix and cost one is not finite.
-/
structure HasNonfiniteRightSide [PivotSplit α] (p : LinearProgram α m n) : Prop where
  matrix : p.matrix.gram.all allFinite
  factored : ∃ factors, Definite.factor 1 p.matrix.gram = .ok factors
  rightSides : ¬(allFinite p.rightSide ∧ allFinite (Entries.mulVec p.matrix.entries p.cost))

variable [PivotSplit α] {p : LinearProgram α m n} {fault : Definite.Fault}

/-- What the normal equations are refused for is why there is no starting point. -/
theorem startingPoint_eq_error_iff
    : p.startingPoint = .error fault
      ↔ Definite.solvePair p.matrix.gram p.rightSide (Entries.mulVec p.matrix.entries p.cost)
        = .error fault := by
  simp only [startingPoint, leastNorm]
  cases Definite.solvePair p.matrix.gram p.rightSide (Entries.mulVec p.matrix.entries p.cost) with
  | error other => simp
  | ok solution => simp

theorem startingPoint_eq_rightSideNotFinite_iff
    : p.startingPoint = .error .rightSideNotFinite ↔ p.HasNonfiniteRightSide := by
  rw [startingPoint_eq_error_iff, Definite.solvePair]
  constructor
  · intro refused
    split at refused
    · next finite =>
        split at refused
        · cases refused
        · next factors factored =>
            split at refused
            · cases refused
            · next sides => exact ⟨finite, ⟨factors, factored⟩, by simpa using sides⟩
    · cases refused
  · rintro ⟨finite, ⟨factors, factored⟩, sides⟩
    rw [← Bool.and_eq_true] at sides
    rw [if_pos finite, factored]
    exact if_neg sides

end LinearProgram

end Start

-----------------------------------------------------------------------------------------
-- Solving
-----------------------------------------------------------------------------------------

namespace State

variable {α σ ε : Type} [Zero α] [One α] [Add α] [Sub α] [Mul α] [Div α] [Neg α] [NatCast α]
  [LT α] [LE α] [DecidableLT α] [DecidableLE α] {engine : Engine α σ} {m n : Nat}
  {p : LinearProgram α m n} {config : Config α} {watch : Watch α ε m n}

/-- The kinds that a solve reports its failures under, apart from having no pass left. -/
def reportedKinds : List Kind :=
  [.factorization, .solve]

omit [Zero α] [One α] [Add α] [Sub α] [Mul α] [Div α] [Neg α] [NatCast α] [LT α] [LE α]
  [DecidableLT α] [DecidableLE α] in
/-- An error that an engine is to blame for is of one of those kinds. -/
theorem kind_of_blames {e : BackendError} {stage : BackendError.Stage}
    (blames : engine.Blames e stage) (later : stage ≠ .setup)
    : e.kind ∈ reportedKinds := by
  rw [BackendError.kind, blames.stage_eq]
  cases stage with
  | setup => exact absurd rfl later
  | factorization => exact .head _
  | solve => exact .tail _ (.head _)

/-- A pass that fails blames the engine, unless it overflows. The trail before it tells that there
is room for the Jacobian and that the backend is bound to it.
-/
theorem Underway.failure_kind {first : Blocks α m n} {initial : σ}
    {trail : List (Blocks α m n × Step α)} {k : Nat} {last : Option α}
    {st next : State engine m n} {seen events : List (Event α m n)} {failure : Failure}
    (h : Underway p config watch first initial trail k last st seen) (hn : 0 < n)
    (passed : st.pass p config watch k = (.ended (.failed failure), next, events))
    : failure = .step .overflow ∨ failure.kind ∈ reportedKinds := by
  obtain ⟨_, _, _, _, ⟨_, _, outcome, _⟩ | ⟨_, advanced⟩⟩ := pass_phases passed
  · split at outcome <;> cases outcome
  · rcases advanced with ⟨fault, refused, _⟩ | ⟨_, e, notices, _, prepared, outcome, _⟩
      | ⟨_, ready, fault, one, two, assembled, prepared, failed, outcome, _⟩
      | ⟨_, _, _, _, _, _, _, _, _, _, outcome, _⟩
    · rw [p.assemble_eq st.point h.room] at refused
      cases refused
    · obtain ⟨-, blames⟩ := prepare_spends hn (by exact h.bound) prepared
      cases outcome
      exact .inr (kind_of_blames (blames e rfl) (by decide))
    · cases outcome
      obtain ⟨⟨_, _, _, _, _, _, _, _, phase⟩, -⟩ :=
        hasFactorsAt_of_prepare assembled prepared (by exact h.bound)
      cases fault with
      | overflow => exact .inl rfl
      | backend e =>
          obtain ⟨blames, -⟩ := (step_spends phase failed).2 e rfl
          exact .inr (kind_of_blames blames (by decide))
    · split at outcome <;> cases outcome

/-- A solve fails for right sides that are not finite, overflows, or fails with a kind that it
reports; whatever the engine answers and the observer does.
-/
theorem solve_failure_kind [PivotSplit α] (hn : 0 < n) {st : State engine m n}
    (room : p.jacobianCapacity ≤ st.jacobian.capacity) {failure : Failure}
    (failed : (st.solve p config watch).1 = .failed failure)
    : failure = .start .rightSideNotFinite
      ∨ failure = .step .overflow
      ∨ failure.kind ∈ reportedKinds := by
  cases start : p.startingPoint with
  | error fault =>
      rw [solve_unstarted start] at failed
      obtain rfl := Ending.failed.inj failed
      rcases Definite.solvePair_kind (p.startingPoint_eq_error_iff.mp start) with rfl | kind
      · exact .inl rfl
      · refine .inr (.inr ?_)
        rw [Failure.kind, kind]
        exact .head _
  | ok y =>
      rw [solve_eq_conclude start] at failed
      refine .inr (underway_induction config y hn room
        (fun how _ _ => how = .failed failure →
          failure = .step .overflow ∨ failure.kind ∈ reportedKinds)
        ?_ ?_ (conclude_eq_failed_iff.mp failed))
      · rintro trail k last now seen how next events _ underway passed rfl
        exact underway.failure_kind hn passed
      · intro trail last now seen _ failed
        cases failed

theorem solve_rightSide_iff [PivotSplit α] (st : State engine m n)
    : (st.solve p config watch).1 = .failed (.start .rightSideNotFinite)
      ↔ p.HasNonfiniteRightSide := by
  rw [← p.startingPoint_eq_rightSideNotFinite_iff]
  cases start : p.startingPoint with
  | error fault =>
      rw [solve_unstarted start]
      simp
  | ok y => exact iff_of_false (solve_ne_start start config watch st _) (by simp)

/-- Those two are all that a solve fails with beyond the kinds that it reports. -/
theorem solve_escapes_iff [PivotSplit α] (hn : 0 < n) {st : State engine m n}
    (held : p.HoldsJacobian st.jacobian)
    : (∃ failure,
          (st.solve p config watch).1 = .failed failure ∧ failure.kind ∉ reportedKinds)
      ↔ p.HasNonfiniteRightSide ∨ st.Overflows p config watch := by
  constructor
  · rintro ⟨failure, failed, unreported⟩
    rcases solve_failure_kind hn held.capacity_eq.ge failed with rfl | rfl | reported
    · exact .inl (st.solve_rightSide_iff.mp failed)
    · exact .inr (st.solve_overflows_iff.mp failed)
    · exact absurd reported unreported
  · rintro (nonfinite | overflows)
    · exact ⟨_, st.solve_rightSide_iff.mpr nonfinite, by decide⟩
    · exact ⟨_, st.solve_overflows_iff.mpr overflows, by decide⟩

end State

-----------------------------------------------------------------------------------------
-- The command
-----------------------------------------------------------------------------------------

namespace CommandLine

namespace Account

variable {kind : Kind}

/-- A failure of one of the library's own kinds is one error line, with the code for it. -/
theorem after_ofFailure_own (own : kind.isOwn = true) (message : String)
    (files : FileTree Contents) (lines : List String)
    : (ofFailure kind message files).after lines
      = ⟨lines, ["ERROR: " ++ kind.name ++ ": " ++ message], [], .finished 2, files⟩ := by
  simp only [ofFailure, own, if_true, failed, after, List.append_nil, String.append_assoc]

/-- One of another kind escapes. -/
theorem after_ofFailure_other (other : kind.isOwn = false) (message : String)
    (files : FileTree Contents) (lines : List String)
    : (ofFailure kind message files).after lines
      = ⟨lines, [], [], .escaped kind message, files⟩ := by
  simp only [ofFailure, other, Bool.false_eq_true, if_false, stop, after, List.append_nil]

end Account

namespace Request

/-- The solver that a request runs on a program. -/
def solver (r : Request) (posed : Posed)
    : State (r.draft.solver.engine : Engine Float Unit) posed.program.rows posed.program.cols :=
  .initial posed.program.program (.fresh r.draft.solver.engine ())

/-- What a request wants to see of it. -/
def watch (r : Request) (posed : Posed)
    : Watch Float Empty posed.program.rows posed.program.cols :=
  ⟨r.draft.verbose, r.draft.timing, none⟩

/-- What a solve of a request may raise without its being reported, with kind and message. -/
inductive Escapes (r : Request) (posed : Posed) : Kind → String → Prop
  | rightSide (nonfinite : posed.program.program.HasNonfiniteRightSide)
    : Escapes r posed .value "array must not contain infs or NaNs"
  | overflow
    (overflows : (r.solver posed).Overflows posed.program.program posed.config (r.watch posed))
    : Escapes r posed .overflow "(34, 'Numerical result out of range')"

/-- How a request goes on with a problem. The line on the problem is always printed first, and where
a failure is reported or escapes the files stay as they were.
-/
inductive Ends (r : Request) (duration : String) (p : Problem Float) (files : FileTree Contents)
    : Account → Prop
  /-- The settings or the dimensions are refused, which is reported. -/
  | refused (fault : SetupFault)
    (unposed : Posed.ofSparse p.matrix.inside p.rightSide p.cost r.settings = .error fault)
    (kind_eq : fault.kind = .config)
    : Ends r duration p files
        ⟨[problemLine p], ["ERROR: " ++ Kind.config.name ++ ": " ++ fault.message], [],
          .finished 2, files⟩
  /-- The solve converges, and the solution is presented. If neither a certificate nor a file is
  asked for, that is all. Digits of a certificate that have no precision raise an overflow.
  -/
  | converged (posed : Posed)
    (result : Result Float posed.program.rows posed.program.cols)
    (final : State (r.draft.solver.engine : Engine Float Unit) posed.program.rows
      posed.program.cols)
    (events : Array (Event Float posed.program.rows posed.program.cols)) (account : Account)
    (posed_eq : Posed.ofSparse p.matrix.inside p.rightSide p.cost r.settings = .ok posed)
    (regular : ∀ kind message, ¬r.Escapes posed kind message)
    (solved
      : (r.solver posed).solve posed.program.program posed.config (r.watch posed)
        = (.converged result, final, events))
    (presented
      : account
        = (((r.present p posed.program.program result (traceOf final.history) files).after
            (events.toList.filterMap (·.line? r.draft.solver.name duration))).warned
              ((posed.config.warning? result).toList.map (warningText result.gap))).after
                [problemLine p])
    (finished
      : r.draft.certify = none →
        r.draft.output = none →
        r.draft.plot = none →
        account.exit = .finished 0)
    (overflowed
      : ∀ digits fault,
          r.draft.certify = some digits →
          Rounded.precision digits = .error fault →
          account.exit = .escaped .overflow fault.message)
    : Ends r duration p files account
  /-- The solve fails for one of three reasons, which is reported. -/
  | failed (posed : Posed) (kind : Kind) (message : String) (shown : List String)
    (posed_eq : Posed.ofSparse p.matrix.inside p.rightSide p.cost r.settings = .ok posed)
    (regular : ∀ kind message, ¬r.Escapes posed kind message)
    (kind_mem : kind ∈ [.factorization, .solve, .convergence])
    : Ends r duration p files
        ⟨problemLine p :: shown, ["ERROR: " ++ kind.name ++ ": " ++ message], [], .finished 2,
          files⟩
  /-- The solve raises something else, and nothing is reported. -/
  | escaped (posed : Posed) (kind : Kind) (message : String) (shown : List String)
    (posed_eq : Posed.ofSparse p.matrix.inside p.rightSide p.cost r.settings = .ok posed)
    (escapes : r.Escapes posed kind message)
    : Ends r duration p files ⟨problemLine p :: shown, [], [], .escaped kind message, files⟩

section Present

variable {m n : Nat} {r : Request} (p : Problem Float) (program : LinearProgram Float m n)
  (result : Result Float m n) (trace : List TracePoint) (files : FileTree Contents)

/-- Where neither a certificate nor a file is asked for, presenting a solution is the end. -/
theorem present_exit (no_certificate : r.draft.certify = none) (no_output : r.draft.output = none)
    (no_plot : r.draft.plot = none)
    : (r.present p program result trace files).exit = .finished 0 := by
  simp only [present, no_certificate, report, no_output, plot, no_plot]
  rfl

/-- A certificate with too many digits for a precision is an overflow, and nothing catches it. -/
theorem present_exit_of_precision {digits : Int} {fault : Rounded.PrecisionFault}
    (certify : r.draft.certify = some digits) (imprecise : Rounded.precision digits = .error fault)
    : (r.present p program result trace files).exit = .escaped .overflow fault.message := by
  simp only [present, certify, imprecise]
  rfl

end Present

/-- A solve that ends in another way does not escape. -/
theorem not_escapes {r : Request} {posed : Posed}
    {ending : Ending Float Empty posed.program.rows posed.program.cols}
    (solved
      : ((r.solver posed).solve posed.program.program posed.config (r.watch posed)).1 = ending)
    (finite : ending ≠ .failed (.start .rightSideNotFinite))
    (bounded : ending ≠ .failed (.step .overflow)) (kind : Kind) (message : String)
    : ¬r.Escapes posed kind message := by
  subst solved
  rintro (nonfinite | overflows)
  · exact finite (((r.solver posed).solve_rightSide_iff).mpr nonfinite)
  · exact bounded (((r.solver posed).solve_overflows_iff).mpr overflows)

/-- A solve that fails is reported, or what it raises escapes. -/
theorem ends_of_failed {r : Request} {p : Problem Float} {posed : Posed}
    (posed_eq : Posed.ofSparse p.matrix.inside p.rightSide p.cost r.settings = .ok posed)
    {failure : Failure}
    (failed
      : ((r.solver posed).solve posed.program.program posed.config (r.watch posed)).1
        = .failed failure)
    (duration : String) (files : FileTree Contents) (shown : List String)
    : r.Ends duration p files
        ((Account.ofFailure failure.kind failure.message files).after
          (problemLine p :: shown)) := by
  have hn := Posed.cols_pos_of_ofSparse posed_eq
  have held : posed.program.program.HoldsJacobian (r.solver posed).jacobian := .empty
  rcases State.solve_failure_kind hn held.capacity_eq.ge failed with rfl | rfl | kind_mem
  · rw [Account.after_ofFailure_other rfl]
    exact .escaped posed _ _ shown posed_eq (.rightSide ((State.solve_rightSide_iff _).mp failed))
  · rw [Account.after_ofFailure_other rfl]
    exact .escaped posed _ _ shown posed_eq (.overflow ((State.solve_overflows_iff _).mp failed))
  · have own : ∀ kind ∈ State.reportedKinds, kind.isOwn = true := by decide
    have among : ∀ kind ∈ State.reportedKinds, kind ∈ [.factorization, .solve, .convergence] := by
      decide
    rw [Account.after_ofFailure_own (own _ kind_mem)]
    refine .failed posed _ _ shown posed_eq (not_escapes failed ?_ ?_) (among _ kind_mem)
    · rintro ⟨⟩
      exact absurd kind_mem (by decide)
    · rintro ⟨⟩
      exact absurd kind_mem (by decide)

/-- Once there is a problem, setting it up and solving it converges or is reported as one of four
kinds of failure, with the code for that; unless the right sides of the normal equations are not
finite or the centering parameter overflows, and then exactly that escapes.
-/
theorem run_ends (r : Request) (duration : String) (files : FileTree Contents)
    {p : Problem Float} (got : r.problem files = .ok p) (inside : p.matrix.isInside)
    : r.Ends duration p files (r.run duration files) := by
  rw [run, got]
  cases posed_eq : Posed.ofSparse p.matrix.inside p.rightSide p.cost r.settings with
  | error fault =>
      have kind_eq := Posed.ofSparse_kind posed_eq
      simp only [posed_eq, kind_eq]
      rw [Account.after_ofFailure_own rfl]
      exact .refused fault posed_eq kind_eq
  | ok posed =>
      simp only [posed_eq, inside, if_true]
      cases solved
          : (r.solver posed).solve posed.program.program posed.config (r.watch posed) with
      | mk ending rest =>
          obtain ⟨final, events⟩ := rest
          have ended := congrArg Prod.fst solved
          have spelled := solved
          simp only [solver, watch] at spelled
          simp only [Request.solve, spelled]
          cases ending with
          | converged result =>
              have regular := not_escapes ended (by simp) (by simp)
              refine .converged posed result final events _ posed_eq regular solved rfl ?_ ?_
              · intro no_certificate no_output no_plot
                exact present_exit p _ result _ files no_certificate no_output no_plot
              · intro digits fault certify imprecise
                exact present_exit_of_precision p _ result _ files certify imprecise
          | unconverged limit gap =>
              have regular := not_escapes ended (by simp) (by simp)
              rw [Account.after_ofFailure_own rfl]
              exact .failed posed .convergence _ _ posed_eq regular (by simp)
          | failed failure => exact ends_of_failed posed_eq ended duration files _
          | interrupted e => exact nomatch e

/-- Setting up from arrays fails with one kind only. A solve of any solver, with any engine and any
observer, fails beyond the kinds that it reports exactly for right sides that are not finite and in
an overflow; the divisions in its starting point are never by zero. So a command that has got its
problem converges, reports its failure or raises one of these two.
-/
theorem failures_documented (r : Request) (duration : String) (files : FileTree Contents)
    {p : Problem Float} (got : r.problem files = .ok p) (inside : p.matrix.isInside)
    : (∀ (a : MatrixSource Float) (inside : a.IsInside) (b c : Nested Float)
          (settings engine : Setting.Value)
          (rightSide cost : Tensor Float) (fault : SetupFault),
          b.tensor = .ok rightSide →
          c.tensor = .ok cost →
          Posed.withEngine a inside b c settings engine = .error fault →
          fault.kind = .config)
      ∧ (∀ {σ ε : Type} {engine : Engine Float σ} {m n : Nat} (program : LinearProgram Float m n)
          (config : Config Float) (watch : Watch Float ε m n) (st : State engine m n),
          0 < n →
          program.HoldsJacobian st.jacobian →
          ((∃ failure,
              (st.solve program config watch).1 = .failed failure
              ∧ failure.kind ∉ State.reportedKinds)
            ↔ program.HasNonfiniteRightSide ∨ st.Overflows program config watch))
      ∧ (∀ {n : Nat} (x s : Vector Float n),
          0 < dot (shift x (raise x)) (shift s (raise s)) →
          isZero (total (shift s (raise s))) = false
          ∧ isZero (total (shift x (raise x))) = false)
      ∧ r.Ends duration p files (r.run duration files) := by
  refine ⟨?_, ?_, balance_divisors_ne_zero, r.run_ends duration files got inside⟩
  · intro a inside b c settings engine rightSide cost fault hb hc refused
    exact Posed.withEngine_kind hb hc refused
  · intro σ ε engine m n program config watch st hn held
    exact State.solve_escapes_iff hn held

/-- A request for a problem that is built in. -/
def vertex : Request where
  source := .demo (.builtIn .vertex)
  draft := .standard

theorem failures_documented_vertex
    : vertex.problem .empty = .ok Catalogue.vertex.problem
      ∧ Catalogue.vertex.problem.matrix.isInside
      ∧ vertex.Ends "" Catalogue.vertex.problem .empty (vertex.run "" .empty) :=
  have inside : Catalogue.vertex.problem.matrix.isInside := by decide +kernel
  ⟨rfl, inside, (failures_documented vertex "" .empty rfl inside).2.2.2⟩

end Request

-----------------------------------------------------------------------------------------
-- A cost that is too large
-----------------------------------------------------------------------------------------

/-- What escapes, if a run ends in that way. -/
def Exit.escaped? : Exit → Option (Kind × String)
  | .escaped kind message => some (kind, message)
  | _ => none

theorem Exit.eq_escaped {exit : Exit} {kind : Kind} {message : String}
    (h : exit.escaped? = some (kind, message))
    : exit = .escaped kind message := by
  cases exit with
  | escaped => cases h; rfl
  | finished | helped | refused | undetermined => cases h

/-- A problem with one row and one column. -/
def hugeCost : Problem Float where
  name := "p"
  matrix := ⟨1, 1, #v[[(0, 1e100)]]⟩
  rightSide := [1]
  cost := [1e250]
  expectedX := none
  expectedObjective := none

/-- A file with that problem. -/
def hugeCostFiles : FileTree Contents :=
  ⟨[], [(["p.npz"], .archive (.ofProblem hugeCost))]⟩

/-- A request to solve it, with nothing else said. -/
def hugeCostRequest : Request where
  source := .file "p.npz"
  draft := { Draft.standard with source := some (.file "p.npz") }

theorem read_hugeCost
    : Request.read ["--problem", "p.npz"] = .ok hugeCostRequest := by
  with_unfolding_all rfl

theorem problem_hugeCost
    : hugeCostRequest.problem hugeCostFiles = .ok hugeCost := by
  have path : (Path.ofString "p.npz").text = "p.npz" := by decide +kernel
  have located : hugeCostFiles.locate "p.npz" = .ok ["p.npz"] := by
    have clean : "p.npz".contains '\x00' = false := by simp
    rw [FileTree.locate, clean]
    decide +kernel
  have found : hugeCostFiles.find "p.npz" = .ok (.file (.archive (.ofProblem hugeCost))) := by
    rw [FileTree.find, located]
    rfl
  simp only [Request.problem, hugeCostRequest, Problem.load, path, found]
  with_unfolding_all rfl

/-- All numbers of the problem are finite, and its normal matrix is as well. The product of matrix
and cost is not, and what the normal equations raise for that is not reported.
-/
theorem hugeCost_escapes
    : hugeCost.matrix.values.all isFinite
      ∧ hugeCost.rightSide.all isFinite
      ∧ hugeCost.cost.all isFinite
      ∧ (run "" ["--problem", "p.npz"] hugeCostFiles).exit
        = .escaped .value "array must not contain infs or NaNs" := by
  refine ⟨by decide +kernel, by decide +kernel, by decide +kernel, Exit.eq_escaped ?_⟩
  rw [run, read_hugeCost]
  dsimp only
  rw [Request.run, problem_hugeCost]
  decide +kernel

end CommandLine

end InteriorPoint
