import InteriorPoint.Proofs.EngineCalls
import InteriorPoint.Proofs.NoBreakdown

/-! What a solve leaves behind, for any arithmetic and any engine. Each pass notes the record of its
point, a step completes it, and there are three ways out: a point is accepted, no pass is left, or
the backend fails. In each of them records, calls of the engine and reports to the observer are
known one by one.
-/

namespace InteriorPoint

variable {α σ ε : Type} [Zero α] [One α] [Add α] [Sub α] [Mul α] [Div α] [Neg α] [NatCast α]
  [LT α] [LE α] [DecidableLT α] [DecidableLE α] {engine : Engine α σ} {m n : Nat}

-----------------------------------------------------------------------------------------
-- The trail of a run
-----------------------------------------------------------------------------------------

namespace LinearProgram

variable (p : LinearProgram α m n)

/-- What is known of an iteration at a point before its step. -/
def recordOf (iteration : Nat) (y : Blocks α m n) : Record α where
  iteration
  objective := p.objective y
  gap := relativeGap (p.objective y) (p.dualObjective y)
  mu := (p.measures y (p.residual y)).mu
  xLeast := least y.x
  sLeast := least y.s
  step := none

/-- Whether a point passes the test. -/
def stopsAt (config : Config α) (y : Blocks α m n) : Bool :=
  config.accepts (p.residual y) (relativeGap (p.objective y) (p.dualObjective y))

/-- One step leads from a point to the next, taken with the residual of the point and with factors
of its Jacobian.
-/
def StepsTo (engine : Engine α σ) (y next : Blocks α m n) (taken : Step α) : Prop :=
  ∃ (ready after : State engine m n) (notices : List Notice),
    ready.point = y
    ∧ ready.residual = p.residual y
    ∧ ready.HasFactorsAt p y
    ∧ ready.step (p.measures y (p.residual y)).mu = (.ok taken, after, notices)
    ∧ after.point = next

/-- The points that a run has left, each with the step taken from there, and the point where the
run is. None of those that it left passes the test.
-/
inductive Trail (engine : Engine α σ) (config : Config α) (first : Blocks α m n)
    : List (Blocks α m n × Step α) → Blocks α m n → Prop
  | start : Trail engine config first [] first
  | onward {trail : List (Blocks α m n × Step α)} {y next : Blocks α m n} {taken : Step α}
    (before : Trail engine config first trail y) (rejected : p.stopsAt config y = false)
    (steps : p.StepsTo engine y next taken)
    : Trail engine config first (trail ++ [(y, taken)]) next

/-- The records of the points that a run has left, in order and with their steps. -/
def records (trail : List (Blocks α m n × Step α)) : List (Record α) :=
  trail.mapIdx fun iteration visit =>
    { p.recordOf iteration visit.1 with step := some visit.2 }

/-- What an observer is told of those points: their records, each with the point reached then. -/
def reports (trail : List (Blocks α m n × Step α)) (y : Blocks α m n)
    : List (Record α × Blocks α m n) :=
  (p.records trail).zip ((trail.map Prod.fst ++ [y]).tail)

theorem records_snoc (trail : List (Blocks α m n × Step α)) (y : Blocks α m n) (taken : Step α)
    : p.records (trail ++ [(y, taken)])
      = p.records trail ++ [{ p.recordOf trail.length y with step := some taken }] := by
  simp [records, List.mapIdx_append]

theorem length_records (trail : List (Blocks α m n × Step α))
    : (p.records trail).length = trail.length := by
  simp [records]

theorem reports_snoc (trail : List (Blocks α m n × Step α)) (y next : Blocks α m n)
    (taken : Step α)
    : p.reports (trail ++ [(y, taken)]) next
      = p.reports trail y ++ [({ p.recordOf trail.length y with step := some taken }, next)] := by
  have lengths
      : (p.records trail).length = ((trail.map Prod.fst ++ [y]).tail).length := by
    simp [length_records]
  have later
      : ((trail ++ [(y, taken)]).map Prod.fst ++ [next]).tail
        = (trail.map Prod.fst ++ [y]).tail ++ [next] := by
    rw [List.map_append, List.tail_append_of_ne_nil (by simp)]
    rfl
  rw [reports, records_snoc, later, List.zip_append lengths]
  rfl

end LinearProgram

/-- What an event tells the observer. -/
def Event.report? : Event α m n → Option (Record α × Blocks α m n)
  | .observed record point => some (record, point)
  | _ => none

/-- Among some events the observer, if there is one, is told some records and nothing else. -/
def Watch.Tells (watch : Watch α ε m n) (events : List (Event α m n))
    (reports : List (Record α × Blocks α m n))
    : Prop :=
  events.filterMap Event.report? = if watch.observer.isSome then reports else []

namespace Watch

variable {watch : Watch α ε m n}

omit [Zero α] [One α] [Add α] [Sub α] [Mul α] [Div α] [Neg α] [NatCast α] [LT α] [LE α]
  [DecidableLT α] [DecidableLE α]

theorem Tells.append {events more : List (Event α m n)}
    {reports further : List (Record α × Blocks α m n)} (first : watch.Tells events reports)
    (second : watch.Tells more further)
    : watch.Tells (events ++ more) (reports ++ further) := by
  rw [Tells] at *
  rw [List.filterMap_append, first, second]
  split <;> rfl

theorem tells_observe (record : Record α) (point : Blocks α m n)
    : watch.Tells (watch.observe record point).2 [(record, point)] := by
  simp only [Tells, observe]
  cases watch.observer <;> rfl

theorem tells_notices (notices : List Notice)
    : watch.Tells (notices.map .notice) [] := by
  simp [Tells, List.filterMap_map, Event.report?, Function.comp_def]

/-- An observer that never breaks a solve off lets it go on. -/
theorem observe_fst (calm : ∀ e, ¬watch.BreaksOff e) (record : Record α) (point : Blocks α m n)
    : (watch.observe record point).1 = .ok () := by
  cases answer : (watch.observe record point).1 with
  | ok => rfl
  | error e => exact absurd (breaksOff_of_observe answer) (calm e)

end Watch

-----------------------------------------------------------------------------------------
-- One pass
-----------------------------------------------------------------------------------------

namespace State

/-- A pass notes the record of its point. Then it stops there, or it goes on to the phases after
the test.
-/
theorem pass_phases {p : LinearProgram α m n} {config : Config α} {watch : Watch α ε m n}
    {k : Nat} {st next : State engine m n} {outcome : Pass α ε} {events : List (Event α m n)}
    (h : st.pass p config watch k = (outcome, next, events))
    : ∃ shown more,
        events = shown ++ more
        ∧ watch.Tells shown []
        ∧ ((p.stopsAt config st.point = true
              ∧ next = { st with
                  residual := p.residual st.point
                  history := st.history.push (p.recordOf k st.point)
                  iterations := k }
              ∧ outcome
                = .ended (match (watch.observe (p.recordOf k st.point) st.point).1 with
                    | .ok () => .accepted
                    | .error e => .interrupted e)
              ∧ more = (watch.observe (p.recordOf k st.point) st.point).2)
            ∨ (p.stopsAt config st.point = false
              ∧ Advanced p watch (p.recordOf k st.point)
                  { st with
                    residual := p.residual st.point
                    history := st.history.push (p.recordOf k st.point) }
                  outcome next more)) := by
  have row (shown : Bool) (objective gap : α)
      : watch.Tells (if shown then [.row k objective gap] else []) [] := by
    cases shown <;> simp [Watch.Tells, Event.report?]
  simp only [pass] at h
  split at h
  · next accepted =>
      obtain ⟨rfl, rest⟩ := Prod.mk.inj h
      obtain ⟨rfl, rfl⟩ := Prod.mk.inj rest
      exact ⟨_, _, rfl, row .., .inl ⟨accepted, rfl, rfl, rfl⟩⟩
  · next rejected =>
      generalize advanced : advance p watch _ _ = result at h
      obtain ⟨reached, final, more⟩ := result
      obtain ⟨rfl, rest⟩ := Prod.mk.inj h
      obtain ⟨rfl, rfl⟩ := Prod.mk.inj rest
      have rejected : p.stopsAt config st.point = false := Bool.eq_false_iff.mpr rejected
      exact ⟨_, _, rfl, row .., .inr ⟨rejected, advance_phases advanced⟩⟩

/-- Where a run stands before pass `k`: the trail it has left, with the records, calls and reports
that go with it. From the second pass on the backend is bound to the Jacobian.
-/
structure Underway (p : LinearProgram α m n) (config : Config α) (watch : Watch α ε m n)
    (first : Blocks α m n) (initial : σ) (trail : List (Blocks α m n × Step α)) (k : Nat)
    (last : Option α) (st : State engine m n) (events : List (Event α m n))
    : Prop where
  path : p.Trail engine config first trail st.point
  length_eq : trail.length = k
  history_eq : st.history.toList = p.records trail
  last_eq : last = (p.records trail).getLast?.map Record.gap
  iterations_eq : st.iterations = 0
  room : p.jacobianCapacity ≤ st.jacobian.capacity
  bound : k = 0 ∨ st.backend.target? = some .jacobian
  spent : engine.Spends initial st.backend.state k (2 * k)
  told : watch.Tells events (p.reports trail st.point)

namespace Underway

variable {p : LinearProgram α m n} {config : Config α} {watch : Watch α ε m n}
  {first : Blocks α m n} {initial : σ} {trail : List (Blocks α m n × Step α)} {k : Nat}
  {last : Option α} {st next : State engine m n} {seen : List (Event α m n)}
  {events : List (Event α m n)}

/-- A pass that goes on makes the trail longer by its point and its step. -/
theorem stepped {gap : α} (h : Underway p config watch first initial trail k last st seen)
    (hn : 0 < n) (passed : st.pass p config watch k = (.stepped gap, next, events))
    : ∃ taken,
        Underway p config watch first initial (trail ++ [(st.point, taken)]) (k + 1) (some gap) next
          (seen ++ events) := by
  obtain ⟨shown, more, rfl, quiet, ⟨_, _, outcome, _⟩ | ⟨rejected, advanced⟩⟩ :=
    pass_phases passed
  · cases outcome
  · rcases advanced with ⟨_, _, outcome, _⟩ | ⟨_, _, _, _, _, outcome, _⟩
      | ⟨_, _, _, _, _, _, _, _, outcome, _⟩
      | ⟨jacobian, ready, after, taken, one, two, assembled, prepared, moved, rfl, outcome, rfl⟩
    · cases outcome
    · cases outcome
    · cases outcome
    · have length := h.length_eq
      obtain ⟨factored, target⟩ := hasFactorsAt_of_prepare assembled prepared (by exact h.bound)
      obtain ⟨once, -⟩ := prepare_spends hn (by exact h.bound) prepared
      have ⟨_, _, _, _, _, _, _, _, phase⟩ := factored
      have twice := (step_spends phase moved).1 taken rfl
      have ready_eq := prepare_leaves prepared
      have after_eq := step_leaves moved
      have history : after.history = st.history.push (p.recordOf k st.point) := by
        rw [after_eq, ready_eq]
      have room : after.jacobian.capacity = st.jacobian.capacity := by
        rw [p.assemble_eq st.point h.room] at assembled
        rw [after_eq, ready_eq, ← Except.ok.inj assembled]
      obtain rfl : (p.recordOf k st.point).gap = gap := by
        split at outcome
        · exact (Pass.stepped.inj outcome).symm
        · cases outcome
      refine ⟨taken, ?_⟩
      constructor
      · refine h.path.onward rejected ⟨ready, after, two, ?_, ?_, factored, moved, rfl⟩
        · rw [ready_eq]
        · rw [ready_eq]
      · rw [List.length_append, length]
        rfl
      · rw [p.records_snoc, length, ← h.history_eq]
        simp only [history, Array.pop_push, Array.toList_push]
      · rw [p.records_snoc, List.getLast?_concat, length]
        rfl
      · rw [after_eq, ready_eq]
        exact h.iterations_eq
      · exact h.room.trans_eq room.symm
      · exact .inr ((step_frame moved).1.trans target)
      · exact h.spent.trans (once.trans twice)
      · have reports := h.told.append (quiet.append ((Watch.tells_notices (one ++ two)).append
          (Watch.tells_observe { p.recordOf k st.point with step := some taken } after.point)))
        rwa [p.reports_snoc, length]

end Underway

-----------------------------------------------------------------------------------------
-- The three ways out
-----------------------------------------------------------------------------------------

/-- What a solve makes of the end of its passes: the backend is released, and a point that was
accepted is reported.
-/
def conclude (p : LinearProgram α m n) (config : Config α) (how : PassEnd α ε)
    (st : State engine m n) (seen : Array (Event α m n))
    : Ending α ε m n × State engine m n × Array (Event α m n) :=
  let (final, notices) := st.release
  let events := seen ++ (notices.map Event.notice).toArray
  match how with
  | .accepted => (.converged (final.result p), final, events)
  | .exhausted gap =>
      (.unconverged config.iterationLimit gap, { final with iterations := config.iterationLimit },
        events)
  | .failed failure => (.failed failure, final, events)
  | .interrupted e => (.interrupted e, final, events)

/-- The ways out of a solve that has a starting point. All of them leave a trail of points that were
not accepted, every one with its record, two solves with one factorization, and a report to the
observer.
-/
inductive Exit (p : LinearProgram α m n) (config : Config α) (watch : Watch α ε m n)
    (first : Blocks α m n) (initial : σ) (ending : Ending α ε m n) (final : State engine m n)
    (events : Array (Event α m n))
    : Prop
  /-- A point is accepted before the limit. Its record, the last one, is without a step, and it is
  the result.
  -/
  | converged (trail : List (Blocks α m n × Step α)) (r : Result α m n)
    (path : p.Trail engine config first trail final.point)
    (accepted : p.stopsAt config final.point = true)
    (early : trail.length < config.iterationLimit)
    (ending_eq : ending = .converged r)
    (iterations_eq : final.iterations = trail.length)
    (history_eq
      : final.history.toList = p.records trail ++ [p.recordOf trail.length final.point])
    (point_eq : r.point = final.point)
    (number_eq : r.iterations = (p.recordOf trail.length final.point).iteration)
    (objective_eq : r.objective = (p.recordOf trail.length final.point).objective)
    (gap_eq : r.gap = (p.recordOf trail.length final.point).gap)
    (spent : engine.Spends initial final.backend.state trail.length (2 * trail.length))
    (told
      : watch.Tells events.toList
          (p.reports trail final.point ++ [(p.recordOf trail.length final.point, final.point)]))
  /-- No pass is left. All records have their steps, and the gap of the last one is reported, if
  there is one.
  -/
  | unconverged (trail : List (Blocks α m n × Step α)) (gap : Option α)
    (path : p.Trail engine config first trail final.point)
    (all : trail.length = config.iterationLimit)
    (ending_eq : ending = .unconverged config.iterationLimit gap)
    (iterations_eq : final.iterations = config.iterationLimit)
    (history_eq : final.history.toList = p.records trail)
    (gap_eq : gap = final.history.toList.getLast?.map Record.gap)
    (gap_none : gap = none ↔ config.iterationLimit = 0)
    (spent
      : engine.Spends initial final.backend.state config.iterationLimit
          (2 * config.iterationLimit))
    (told : watch.Tells events.toList (p.reports trail final.point))
  /-- The backend fails to factor or to solve. The last record stays without its step, and the point
  is not moved any more.
  -/
  | failed (trail : List (Blocks α m n × Step α)) (e : BackendError) (solves : Nat)
    (path : p.Trail engine config first trail final.point)
    (rejected : p.stopsAt config final.point = false)
    (early : trail.length < config.iterationLimit)
    (ending_eq : ending = .failed (.step (.backend e)))
    (iterations_eq : final.iterations = 0)
    (history_eq
      : final.history.toList = p.records trail ++ [p.recordOf trail.length final.point])
    (stage
      : engine.Blames e .factorization ∧ solves = 2 * trail.length
        ∨ engine.Blames e .solve
          ∧ (solves = 2 * trail.length + 1 ∨ solves = 2 * trail.length + 2))
    (spent : engine.Spends initial final.backend.state (trail.length + 1) solves)
    (told : watch.Tells events.toList (p.reports trail final.point))

namespace Underway

variable {p : LinearProgram α m n} {config : Config α} {watch : Watch α ε m n}
  {first : Blocks α m n} {initial : σ} {trail : List (Blocks α m n × Step α)} {k : Nat}
  {last : Option α} {st next : State engine m n} {seen : Array (Event α m n)}
  {events : List (Event α m n)}

omit [Zero α] [One α] [Add α] [Sub α] [Mul α] [Div α] [Neg α] [NatCast α] [LT α] [LE α]
  [DecidableLT α] [DecidableLE α] in
/-- The observer is told nothing by the reports of the backend after the passes. -/
theorem tells_release {reports : List (Record α × Blocks α m n)}
    (told : watch.Tells seen.toList reports) (notices : List Notice)
    : watch.Tells (seen ++ (notices.map Event.notice).toArray).toList reports := by
  have all := told.append (Watch.tells_notices notices)
  simpa using all

/-- A run that has no pass left ends unconverged. -/
theorem exhausted
    (h : Underway p config watch first initial trail config.iterationLimit last st seen.toList)
    : Exit p config watch first initial
        (conclude p config (.exhausted last : PassEnd α ε) st seen).1
        (conclude p config (.exhausted last : PassEnd α ε) st seen).2.1
        (conclude p config (.exhausted last : PassEnd α ε) st seen).2.2 := by
  refine .unconverged trail last h.path h.length_eq rfl rfl h.history_eq ?_ ?_ ?_
    (tells_release h.told _)
  · rw [h.last_eq, ← h.history_eq]
    rfl
  · rw [h.last_eq, Option.map_eq_none_iff, List.getLast?_eq_none_iff, ← List.length_eq_zero_iff,
      p.length_records, h.length_eq]
  · exact h.spent.trans st.backend.spends_release

/-- A run whose backend fails ends with an error. The solves of the pass that failed are counted
apart.
-/
theorem failed (h : Underway p config watch first initial trail k last st seen.toList)
    {e : BackendError} {solves : Nat} (early : k < config.iterationLimit)
    (rejected : p.stopsAt config st.point = false) (point : next.point = st.point)
    (history : next.history = st.history.push (p.recordOf k st.point))
    (iterations : next.iterations = st.iterations)
    (stage
      : engine.Blames e .factorization ∧ solves = 0
        ∨ engine.Blames e .solve ∧ (solves = 1 ∨ solves = 2))
    (spent : engine.Spends st.backend.state next.backend.state 1 solves)
    (quiet : watch.Tells events [])
    : Exit p config watch first initial
        (conclude p config (.failed (.step (.backend e)) : PassEnd α ε) next
          (seen ++ events.toArray)).1
        (conclude p config (.failed (.step (.backend e)) : PassEnd α ε) next
          (seen ++ events.toArray)).2.1
        (conclude p config (.failed (.step (.backend e)) : PassEnd α ε) next
          (seen ++ events.toArray)).2.2 := by
  obtain ⟨path, rfl, history_eq, -, iterations_eq, -, -, before, told⟩ := h
  rw [← point] at path rejected told
  have heard : watch.Tells (seen ++ events.toArray).toList (p.reports trail next.point) := by
    simpa using told.append quiet
  refine .failed trail e (2 * trail.length + solves) path rejected early rfl
    (iterations.trans iterations_eq) ?_ ?_ ?_ (tells_release heard _)
  · change next.history.toList = _
    rw [history, Array.toList_push, history_eq, ← point]
    rfl
  · rcases stage with ⟨blames, rfl⟩ | ⟨blames, number⟩
    · exact .inl ⟨blames, rfl⟩
    · exact .inr ⟨blames, by omega⟩
  · exact (before.trans spent).trans next.backend.spends_release

/-- A pass that ends the run is one of the other two ways out, unless the observer or the arithmetic
breaks it off.
-/
theorem ended (h : Underway p config watch first initial trail k last st seen.toList)
    {how : PassEnd α ε} (hn : 0 < n) (early : k < config.iterationLimit)
    (calm : ∀ e, ¬watch.BreaksOff e)
    (passed : st.pass p config watch k = (.ended how, next, events))
    (regular : how ≠ .failed (.step .overflow))
    : Exit p config watch first initial
        (conclude p config how next (seen ++ events.toArray)).1
        (conclude p config how next (seen ++ events.toArray)).2.1
        (conclude p config how next (seen ++ events.toArray)).2.2 := by
  obtain ⟨shown, more, rfl, quiet, ⟨accepted, rfl, outcome, rfl⟩ | ⟨rejected, advanced⟩⟩ :=
    pass_phases passed
  · rw [Watch.observe_fst calm] at outcome
    obtain rfl := Pass.ended.inj outcome
    obtain ⟨path, rfl, history_eq, -, -, -, -, spent, told⟩ := h
    let last := p.recordOf trail.length st.point
    have heard
        : watch.Tells (seen ++ (shown ++ (watch.observe last st.point).2).toArray).toList
            (p.reports trail st.point ++ [(last, st.point)]) := by
      simpa using told.append (quiet.append (Watch.tells_observe last st.point))
    refine .converged trail _ path accepted early rfl rfl ?_ rfl rfl rfl rfl ?_
      (tells_release heard _)
    · change (st.history.push (p.recordOf trail.length st.point)).toList = _
      rw [Array.toList_push, history_eq]
      rfl
    · exact spent.trans st.backend.spends_release
  · rcases advanced with ⟨fault, refused, _⟩ | ⟨_, e, notices, _, prepared, outcome, rfl⟩
      | ⟨_, ready, fault, one, two, assembled, prepared, failed, outcome, rfl⟩
      | ⟨_, _, after, taken, _, _, _, _, _, _, outcome, _⟩
    · rw [p.assemble_eq st.point h.room] at refused
      cases refused
    · obtain rfl := Pass.ended.inj outcome
      have next_eq := prepare_leaves prepared
      obtain ⟨once, blames⟩ := prepare_spends hn (by exact h.bound) prepared
      refine h.failed early rejected ?_ ?_ ?_ (.inl ⟨blames e rfl, rfl⟩) once
        (quiet.append (Watch.tells_notices notices))
      · rw [next_eq]
      · rw [next_eq]
      · rw [next_eq]
    · obtain rfl := Pass.ended.inj outcome
      have ready_eq := prepare_leaves prepared
      have next_eq := step_leaves failed
      have point := (step_error failed).1
      obtain ⟨once, -⟩ := prepare_spends hn (by exact h.bound) prepared
      obtain ⟨⟨_, _, _, _, _, _, _, _, phase⟩, -⟩ :=
        hasFactorsAt_of_prepare assembled prepared (by exact h.bound)
      cases fault with
      | overflow => exact absurd rfl regular
      | backend e =>
          obtain ⟨blames, solves, number, more⟩ := (step_spends phase failed).2 e rfl
          have spent : engine.Spends st.backend.state next.backend.state 1 solves := by
            have both := once.trans more
            rwa [Nat.zero_add] at both
          refine h.failed early rejected ?_ ?_ ?_ (.inr ⟨blames, number⟩) spent
            (quiet.append (Watch.tells_notices (one ++ two)))
          · rw [point, ready_eq]
          · rw [next_eq, ready_eq]
          · rw [next_eq, ready_eq]
    · rw [Watch.observe_fst calm] at outcome
      cases outcome

end Underway

-----------------------------------------------------------------------------------------
-- The whole solve
-----------------------------------------------------------------------------------------

variable {p : LinearProgram α m n} {config : Config α} {watch : Watch α ε m n}
  {st : State engine m n} {y : Blocks α m n}

/-- A solve that has a starting point concludes its passes. -/
theorem solve_eq_conclude [PivotSplit α] (start : p.startingPoint = .ok y)
    : st.solve p config watch
      = let (how, next, seen) := (st.startedAt y).passes p config watch config.iterationLimit 0
          none (if watch.verbose then #[.header] else #[])
        next.conclude p config how seen :=
  solve_of_start start config watch st

/-- A run starts at the starting point, with nothing behind it. -/
theorem underway_startedAt (room : p.jacobianCapacity ≤ st.jacobian.capacity) (y : Blocks α m n)
    : Underway p config watch y st.backend.state [] 0 none (st.startedAt y)
        (if watch.verbose then #[.header] else #[]).toList where
  path := .start
  length_eq := rfl
  history_eq := rfl
  last_eq := rfl
  iterations_eq := rfl
  room := room
  bound := .inl rfl
  spent := .refl _
  told := by cases watch.verbose <;> simp [Watch.Tells, LinearProgram.reports, Event.report?,
    LinearProgram.records]

/-- What follows for every pass that ends from the trail before it, and for a trail that leaves no
pass, holds where the passes of a solve end; by induction on the passes left.
-/
theorem underway_induction (config : Config α) (y : Blocks α m n) (hn : 0 < n)
    (room : p.jacobianCapacity ≤ st.jacobian.capacity)
    (Tail : PassEnd α ε → State engine m n → Array (Event α m n) → Prop)
    (ended
      : ∀ {trail k last now seen how next events},
          k < config.iterationLimit
          → Underway p config watch y st.backend.state trail k last now seen.toList
          → now.pass p config watch k = (.ended how, next, events)
          → Tail how next (seen ++ events.toArray))
    (exhausted
      : ∀ {trail last now seen},
          Underway p config watch y st.backend.state trail config.iterationLimit last now
            seen.toList
          → Tail (.exhausted last) now seen)
    : let run := (st.startedAt y).passes p config watch config.iterationLimit 0 none
        (if watch.verbose then #[.header] else #[])
      Tail run.1 run.2.1 run.2.2 := by
  let Head (k : Nat) (last : Option α) (now : State engine m n) (seen : Array (Event α m n)) :=
    ∃ trail, Underway p config watch y st.backend.state trail k last now seen.toList
  refine run_induction config.iterationLimit Head Tail ?_ ?_ ?_ (Nat.zero_add _) ?_
  · rintro k last now seen gap next events _ ⟨trail, underway⟩ passed
    obtain ⟨taken, onward⟩ := underway.stepped hn passed
    exact ⟨trail ++ [(now.point, taken)], by simpa using onward⟩
  · rintro k last now seen how next events early ⟨trail, underway⟩ passed
    exact ended early underway passed
  · rintro last now seen ⟨trail, underway⟩
    exact exhausted underway
  · exact ⟨[], underway_startedAt room y⟩

/-- The passes of a solve lead to one of the three ways out. -/
theorem passes_exit (config : Config α) (y : Blocks α m n) (hn : 0 < n)
    (room : p.jacobianCapacity ≤ st.jacobian.capacity) (calm : ∀ e, ¬watch.BreaksOff e)
    : let run := (st.startedAt y).passes p config watch config.iterationLimit 0 none
        (if watch.verbose then #[.header] else #[])
      run.1 ≠ .failed (.step .overflow) →
      Exit p config watch y st.backend.state (run.2.1.conclude p config run.1 run.2.2).1
        (run.2.1.conclude p config run.1 run.2.2).2.1
        (run.2.1.conclude p config run.1 run.2.2).2.2 := by
  let Tail (how : PassEnd α ε) (now : State engine m n) (seen : Array (Event α m n)) :=
    how ≠ .failed (.step .overflow) →
    Exit p config watch y st.backend.state (now.conclude p config how seen).1
      (now.conclude p config how seen).2.1 (now.conclude p config how seen).2.2
  refine underway_induction config y hn room Tail ?_ ?_
  · intro trail k last now seen how next events early underway passed regular
    exact underway.ended hn early calm passed regular
  · intro trail last now seen underway _
    exact underway.exhausted

omit [NatCast α] in
/-- However a solve concludes, the backend is released. -/
theorem target?_conclude (how : PassEnd α ε) (seen : Array (Event α m n))
    : (st.conclude p config how seen).2.1.backend.target? = none := by
  cases how <;> exact st.backend.target?_release

omit [NatCast α] in
/-- A solve fails in the way its passes do. -/
theorem conclude_eq_failed_iff {how : PassEnd α ε} {seen : Array (Event α m n)}
    {failure : Failure}
    : (conclude p config how st seen).1 = .failed failure ↔ how = .failed failure := by
  cases how <;> simp [conclude]

/-- What ends in one of the three ways has got through assembly and the setup of the backend. -/
theorem Exit.failure {initial : σ} {ending : Ending α ε m n} {final : State engine m n}
    {events : Array (Event α m n)} (h : Exit p config watch y initial ending final events)
    : (∀ fault, ending ≠ .failed (.assembly fault))
      ∧ ∀ e, ending = .failed (.step (.backend e)) → e.stage ≠ .setup := by
  cases h with
  | converged _ _ _ _ _ ending_eq => simp [ending_eq]
  | unconverged _ _ _ _ ending_eq => simp [ending_eq]
  | failed _ e _ _ _ _ ending_eq _ _ stage =>
      subst ending_eq
      refine ⟨by simp, ?_⟩
      rintro _ ⟨⟩
      rcases stage with ⟨blames, -⟩ | ⟨blames, -⟩
      · simp [blames.stage_eq]
      · simp [blames.stage_eq]

/-- A solve that has a starting point leaves in one of three ways, with the backend released.
Neither assembly nor the setup of the backend can fail, whatever the engine answers, as long as the
observer does not break the solve off and the arithmetic does not overflow.
-/
theorem solve_exits [PivotSplit α] (hn : 0 < n) (held : p.HoldsJacobian st.jacobian)
    (start : p.startingPoint = .ok y) (calm : ∀ e, ¬watch.BreaksOff e)
    (regular : (st.solve p config watch).1 ≠ .failed (.step .overflow))
    : Exit p config watch y st.backend.state (st.solve p config watch).1
        (st.solve p config watch).2.1 (st.solve p config watch).2.2
      ∧ (st.solve p config watch).2.1.backend.target? = none
      ∧ (∀ fault, (st.solve p config watch).1 ≠ .failed (.assembly fault))
      ∧ ∀ e, (st.solve p config watch).1 = .failed (.step (.backend e)) → e.stage ≠ .setup := by
  have exit := passes_exit config y hn held.capacity_eq.ge calm
  rw [solve_eq_conclude start] at regular ⊢
  dsimp only at regular exit ⊢
  generalize (st.startedAt y).passes p config watch config.iterationLimit 0 none _ = run
    at regular exit ⊢
  have ends := exit fun overflow => regular (by rw [overflow]; rfl)
  exact ⟨ends, target?_conclude .., ends.failure⟩

/-- A solver of the sample program whose engine fails in its fourth solve. -/
def sampleInterrupted
    : State (Engine.monitored (Direct.engine .dense : Engine ℚ Unit) ⟨none, some 4⟩) 1 2 :=
  .initial .sample (.fresh _ ((), ⟨0, 0, 0⟩))

/-- The second pass factors and fails in its corrector, and whoever counts calls can tell. -/
theorem solve_exits_interrupted
    : LinearProgram.sample.HoldsJacobian sampleInterrupted.jacobian
      ∧ (∀ e, ¬(Watch.silent : Watch ℚ Empty 1 2).BreaksOff e)
      ∧ (sampleInterrupted.solve .sample .sample .silent).1
        = .failed (.step (.backend ⟨"dense", .solve .injected⟩))
      ∧ (Engine.monitored (Direct.engine .dense : Engine ℚ Unit) ⟨none, some 4⟩).IsCountedBy
          Prod.snd
      ∧ ∃ y,
          LinearProgram.sample.startingPoint = .ok y
          ∧ Exit .sample .sample .silent y ((), ⟨0, 0, 0⟩)
              (sampleInterrupted.solve .sample .sample .silent).1
              (sampleInterrupted.solve .sample .sample .silent).2.1
              (sampleInterrupted.solve .sample .sample .silent).2.2 := by
  obtain ⟨y, start⟩ := exists_ok (x := LinearProgram.sample.startingPoint) (by decide +kernel)
  have calm : ∀ e, ¬(Watch.silent : Watch ℚ Empty 1 2).BreaksOff e := by
    rintro _ ⟨_, ⟨⟩, -⟩
  have failed
      : (sampleInterrupted.solve .sample .sample (.silent : Watch ℚ Empty 1 2)).1
        = .failed (.step (.backend ⟨"dense", .solve .injected⟩)) :=
    Ending.eq_failed_of_backendError? (by decide +kernel)
  have exits := solve_exits (by decide) .empty start calm (by rw [failed]; simp)
  exact ⟨.empty, calm, failed, Engine.monitored_isCountedBy .., y, start, exits.1⟩

end State

end InteriorPoint
