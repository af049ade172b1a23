import InteriorPoint.Proofs.Passes

/-! The states that a run goes through. After each pass the run either goes on with the next one
or stays where it is, so the states of a short run are those of a long one, and its history is a
prefix of the other.
-/

namespace InteriorPoint

variable {α σ ε : Type} [Field α] [LinearOrder α] {engine : Engine α σ} {m n : Nat}

namespace State

/-- A pass that goes on is the first of the run. -/
theorem passes_stepped {p : LinearProgram α m n} {config : Config α} {watch : Watch α ε m n}
    (remaining : Nat) {k : Nat} {last : Option α} {gap : α} {st next : State engine m n}
    {seen : Array (Event α m n)} {events : List (Event α m n)}
    (passed : st.pass p config watch k = (.stepped gap, next, events))
    : st.passes p config watch (remaining + 1) k last seen
      = next.passes p config watch remaining (k + 1) (some gap) (seen ++ events.toArray) := by
  rw [passes, passed]

/-- A run that goes on with pass `k`: it has noted so many records until now, and any pass but the
first finds the backend bound to the Jacobian.
-/
structure GoesOn (ε : Type) (p : LinearProgram α m n) (config : Config α) (size k : Nat)
    (st next : State engine m n)
    : Prop where
  size_eq : st.history.size = size
  bound : k = 0 ∨ st.backend.target? = some .jacobian
  passed : ∃ outcome : Pass α ε, PassCase p config k st outcome next

/-- One pass more either goes on from where the others came to or finds the run at its end. The
induction is on the passes before, with the first one split off.
-/
theorem passes_succ (p : LinearProgram α m n) (config : Config α) (watch : Watch α ε m n)
    (remaining k : Nat) (gap : Option α) (st : State engine m n) (seen : Array (Event α m n))
    (bound : k = 0 ∨ st.backend.target? = some .jacobian)
    : (st.passes p config watch (remaining + 1) k gap seen).2.1
          = (st.passes p config watch remaining k gap seen).2.1
        ∨ GoesOn ε p config (st.history.size + remaining) (k + remaining)
            (st.passes p config watch remaining k gap seen).2.1
            (st.passes p config watch (remaining + 1) k gap seen).2.1 := by
  induction remaining generalizing k gap st seen with
  | zero =>
      refine .inr ⟨rfl, bound, ?_⟩
      rw [passes, passes]
      split
      · next passed => exact ⟨_, pass_cases passed⟩
      · next passed => exact ⟨_, pass_cases passed⟩
  | succ remaining ih =>
      cases passed : st.pass p config watch k with
      | mk outcome rest =>
          obtain ⟨next, events⟩ := rest
          cases outcome with
          | ended how => exact .inl (by simp only [passes, passed])
          | stepped gap =>
              have onward := pass_cases passed
              obtain ⟨record, history, -⟩ := onward.history_push
              have target : next.backend.target? = some .jacobian := by
                cases onward with
                | stopped _ outcome_eq => simp at outcome_eq
                | failed _ outcome_eq => simp at outcome_eq
                | moved _ _ _ _ _ _ after => exact after bound
              have sizes : next.history.size + remaining = st.history.size + (remaining + 1) := by
                rw [history, Array.size_push]
                omega
              have numbers : k + 1 + remaining = k + (remaining + 1) := by omega
              have shifted := ih (k + 1) (some gap) next (seen ++ events.toArray) (.inr target)
              rw [sizes, numbers] at shifted
              rw [passes_stepped (remaining + 1) passed, passes_stepped remaining passed]
              exact shifted

section Solve

variable (p : LinearProgram α m n) (config : Config α) (watch : Watch α ε m n)
  (y : Blocks α m n) (st : State engine m n)

/-- The state to which a solve that starts at a point has come after some number of passes, or at
its end if that comes first.
-/
def afterPasses (k : Nat)
    : State engine m n :=
  ((st.startedAt y).passes p config watch k 0 none #[]).2.1

/-- The state after one pass more is the same, or the run goes on with that pass. -/
theorem afterPasses_succ (k : Nat)
    : st.afterPasses p config watch y (k + 1) = st.afterPasses p config watch y k
        ∨ GoesOn ε p config k k (st.afterPasses p config watch y k)
            (st.afterPasses p config watch y (k + 1)) := by
  have next := (st.startedAt y).passes_succ p config watch k 0 none #[] (.inl rfl)
  rcases next with same | onward
  · exact .inl same
  · have fresh : (st.startedAt y).history.size + k = k := by simp [startedAt]
    rw [fresh, Nat.zero_add] at onward
    exact .inr onward

/-- What holds at the start and after every pass that a run takes holds after any number of them,
by induction on that number.
-/
theorem afterPasses_induction (motive : State engine m n → Prop) (start : motive (st.startedAt y))
    (onward
      : ∀ k before after, motive before → GoesOn ε p config k k before after → motive after)
    (k : Nat)
    : motive (st.afterPasses p config watch y k) := by
  induction k with
  | zero => exact start
  | succ k ih =>
      rcases st.afterPasses_succ p config watch y k with same | next
      · rw [same]
        exact ih
      · exact onward k _ _ ih next

/-- No pass notes more than one record. -/
theorem size_history_afterPasses_le (k : Nat)
    : (st.afterPasses p config watch y k).history.size ≤ k := by
  induction k with
  | zero => exact le_rfl
  | succ k ih =>
      rcases st.afterPasses_succ p config watch y k with same | next
      · rw [same]
        omega
      · obtain ⟨_, passed⟩ := next.passed
        obtain ⟨record, history, -⟩ := passed.history_push
        rw [history, Array.size_push]
        omega

/-- A run that has noted fewer records than it could take passes has come to its end. -/
theorem afterPasses_eq_of_size_lt {j k : Nat}
    (ended : (st.afterPasses p config watch y j).history.size < j) (le : j ≤ k)
    : st.afterPasses p config watch y k = st.afterPasses p config watch y j := by
  induction k, le using Nat.le_induction with
  | base => rfl
  | succ k le ih =>
      rcases st.afterPasses_succ p config watch y k with same | next
      · exact same.trans ih
      · have size := next.size_eq
        rw [ih] at size
        omega

/-- Records are only added: what was noted after fewer passes is a prefix. -/
theorem history_afterPasses_prefix {j k : Nat} (le : j ≤ k)
    : (st.afterPasses p config watch y j).history.toList
      <+: (st.afterPasses p config watch y k).history.toList := by
  induction k, le using Nat.le_induction with
  | base => exact List.prefix_rfl
  | succ k le ih =>
      rcases st.afterPasses_succ p config watch y k with same | next
      · rw [same]
        exact ih
      · obtain ⟨_, passed⟩ := next.passed
        obtain ⟨record, history, -⟩ := passed.history_push
        rw [history, Array.toList_push]
        exact ih.trans (List.prefix_append ..)

/-- The first records of a long run are the records of a short one. -/
theorem take_history_afterPasses {j k : Nat} (le : j ≤ k)
    : (st.afterPasses p config watch y k).history.toList.take j
      = (st.afterPasses p config watch y j).history.toList := by
  rcases (st.size_history_afterPasses_le p config watch y j).lt_or_eq with fewer | all
  · rw [st.afterPasses_eq_of_size_lt p config watch y fewer le]
    exact List.take_of_length_le fewer.le
  · have first :=
      List.prefix_iff_eq_take.mp (st.history_afterPasses_prefix p config watch y le)
    rw [Array.length_toList, all] at first
    exact first.symm

/-- Each record of a run is the one of the state that the passes before came to, apart from the
step that its own pass took from there.
-/
theorem getElem_history_afterPasses {k i : Nat}
    (h : i < (st.afterPasses p config watch y k).history.size)
    : { (st.afterPasses p config watch y k).history[i] with step := none }
      = (st.afterPasses p config watch y i).recordAt p i := by
  have le : i + 1 ≤ k := h.trans_le (st.size_history_afterPasses_le p config watch y k)
  have first := st.take_history_afterPasses p config watch y le
  rcases st.afterPasses_succ p config watch y i with same | next
  · have noted := st.size_history_afterPasses_le p config watch y i
    have lengths := congrArg List.length first
    rw [same, List.length_take, Array.length_toList, Array.length_toList] at lengths
    omega
  · obtain ⟨_, passed⟩ := next.passed
    obtain ⟨record, history, noted⟩ := passed.history_push
    rw [history, Array.toList_push] at first
    have found : (st.afterPasses p config watch y k).history[i] = record := by
      have last := congrArg (fun records => records[i]?) first
      have size := next.size_eq
      simp only [List.getElem?_take_of_lt (Nat.lt_succ_self i), Array.getElem?_toList,
        Array.getElem?_eq_getElem h] at last
      rw [List.getElem?_append_right (by simp [size])] at last
      simpa [size] using last
    rw [found, noted]

/-- The states after each number of passes are those that a solve goes through: it ends with the
point and the history of the last one, and its records are theirs, apart from the steps.
-/
structure GoesThrough
    : Prop where
  point_eq
    : (st.solve p config watch).2.1.point
      = (st.afterPasses p config watch y config.iterationLimit).point
  history_eq
    : (st.solve p config watch).2.1.history
      = (st.afterPasses p config watch y config.iterationLimit).history
  record_eq
    : ∀ k, ∀ h : k < (st.solve p config watch).2.1.history.size,
        { (st.solve p config watch).2.1.history[k] with step := none }
        = (st.afterPasses p config watch y k).recordAt p k

/-- Every solve that has a starting point goes through them. -/
theorem goesThrough (start : p.startingPoint = .ok y)
    : st.GoesThrough p config watch y := by
  let shown : Array (Event α m n) := if watch.verbose then #[.header] else #[]
  have same := ((st.startedAt y).passes_seen p config watch config.iterationLimit 0 none #[]
    shown).2
  have final
      : (st.solve p config watch).2.1.point
            = (st.afterPasses p config watch y config.iterationLimit).point
          ∧ (st.solve p config watch).2.1.history
            = (st.afterPasses p config watch y config.iterationLimit).history := by
    rw [afterPasses, same, solve_of_start start]
    dsimp only
    split <;> exact ⟨rfl, rfl⟩
  obtain ⟨point_eq, history_eq⟩ := final
  refine ⟨point_eq, history_eq, ?_⟩
  rw [history_eq]
  intro k h
  exact st.getElem_history_afterPasses p config watch y h

end Solve

end State

end InteriorPoint
