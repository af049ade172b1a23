import InteriorPoint.Certificate.Parts
import InteriorPoint.Method.View
import InteriorPoint.Proofs.CanonicalForm
import InteriorPoint.Proofs.CertificateSoundness
import InteriorPoint.Proofs.GapIdentity

/-! Certificates without rounding. The one pass over the columns makes the two products that the
method makes by rows and by columns, for every pattern of entries. So a certificate in exact
arithmetic states what a solver measures at the same point, and by weak duality one that passes
bounds how much better any feasible point can be.
-/

namespace InteriorPoint

open scoped Matrix

variable {α σ : Type} {engine : Engine α σ} {m n : Nat}

-----------------------------------------------------------------------------------------
-- One pass over the columns
-----------------------------------------------------------------------------------------

/-- Both products of a certificate are those of the method, in any arithmetic. The pass adds up the
entries from the first column to the last in either of them; by induction on the entries, with the
products so far as a start.
-/
theorem Certificate.products_eq [Zero α] [Add α] [Mul α] (a : Columns α m n) (y : Blocks α m n)
    : products a y = ⟨Entries.mulVec a.entries y.x, Entries.trMulVec a.entries y.lam⟩ := by
  have general (es : List (Entry α m n)) (start : Products α m n)
      : es.foldl (fun sums e => sums.add y e.col (e.row, e.value)) start
        = ⟨es.foldl (fun z e => z.set e.row (z[e.row] + e.value * y.x[e.col])) start.rows,
            (es.map Entry.transpose).foldl
              (fun z e => z.set e.row (z[e.row] + e.value * y.lam[e.col])) start.cols⟩ := by
    induction es generalizing start with
    | nil => rfl
    | cons e es ih =>
        rw [List.foldl_cons, ih]
        rfl
  have flat
      : products a y
        = a.entries.foldl (fun sums e => sums.add y e.col (e.row, e.value))
            ⟨Vector.replicate m 0, Vector.replicate n 0⟩ := by
    simp only [products, Columns.entries, List.foldl_flatMap, List.foldl_map]
  rw [flat, general]
  rfl

-----------------------------------------------------------------------------------------
-- Parts that are taken over as they are
-----------------------------------------------------------------------------------------

theorem Blocks.map_id (y : Blocks α m n)
    : y.map id = y := by
  simp [Blocks.map]

theorem LinearProgram.map_id (p : LinearProgram α m n)
    : p.map id = p := by
  obtain ⟨⟨column⟩, rightSide, cost⟩ := p
  simp [LinearProgram.map, Columns.map]

/-- Rows that lie inside are not counted from the end. -/
theorem Loose.fromEnd_ofSparse (a : Sparse α)
    : (ofSparse a).fromEnd = ofSparse a := by
  obtain ⟨m, n, ⟨column⟩⟩ := a
  have counted (item : Fin m × α)
      : (if Int.ofNat item.1.val < 0 then Int.ofNat item.1.val + m else Int.ofNat item.1.val,
            item.2)
        = (Int.ofNat item.1.val, item.2) := by
    have nonneg : ¬Int.ofNat item.1.val < 0 := Int.not_lt.mpr (Int.natCast_nonneg _)
    rw [if_neg nonneg]
  refine congrArg (Loose.mk m n) (Vector.map_map.trans ?_)
  refine congrArg (column.map ·) (funext fun items => ?_)
  exact List.map_map.trans (List.map_congr_left fun item _ => counted item)

/-- A line of values is written over a vector of its length as it is. A single value, which fills
whatever it is written over, is no exception.
-/
theorem Tensor.fit_line {k : Nat} (v : Vector α k)
    : (line v.toList).fit k = .ok v := by
  have lists (values : List α) (size : values.length = k)
      : (line values).fit k = .ok ⟨values.toArray, by simpa using size⟩ := by
    subst size
    match values with
    | [] => rfl
    | [_] => rfl
    | _ :: _ :: _ => simp [line, fit, dropOnes]
  exact lists v.toList (Vector.length_toList)

/-- A program is put together from the values of vectors that fit the matrix. -/
theorem AnyProgram.of_toList (rows : 0 < m) (cols : 0 < n) (p : LinearProgram α m n)
    : AnyProgram.of ⟨m, n, p.matrix⟩ p.rightSide.toList p.cost.toList = .ok ⟨m, n, p⟩ := by
  have some : ¬(p.cost.toList.length = 0 ∨ p.rightSide.toList.length = 0) := by
    simp only [Vector.length_toList]
    omega
  have fits : p.rightSide.toList.length = m ∧ p.cost.toList.length = n := by
    simp only [Vector.length_toList, and_self]
  rw [of, if_neg some, dif_pos fits]
  rfl

/-- Writes the parts of a point one after another. -/
def State.writePoint (st : State engine m n) (y : Blocks α m n)
    : Except ShapeFault (State engine m n) := do
  let st ← st.write ⟨.point, .x⟩ (.line y.x.toList)
  let st ← st.write ⟨.point, .lam⟩ (.line y.lam.toList)
  st.write ⟨.point, .s⟩ (.line y.s.toList)

theorem State.writePoint_eq (st : State engine m n) (y : Blocks α m n)
    : st.writePoint y = .ok { st with point := y } := by
  simp only [writePoint, write, Blocks.write, Tensor.fit_line]
  rfl

-----------------------------------------------------------------------------------------
-- What a certificate states and what a solver measures
-----------------------------------------------------------------------------------------

variable [Field α] [LinearOrder α]

namespace Certificate

/-- Where all values are defined, the extremes that overlook undefined ones are the same as those
that do not.
-/
theorem greatest_map_magnitude (v : Vector α n)
    : greatest (v.toList.map magnitude) = supNorm v := by
  have same : (firstMax : α → α → α) = greater := by
    rw [greater_eq_max]
    exact funext fun x => funext fun y => firstMax_eq_max x y
  rw [greatest, supNorm, same]

theorem leastOf_toList (v : Vector α n)
    : leastOf v.toList = least v := by
  have same : (firstMin : α → α → α) = lesser := by
    rw [lesser_eq_min]
    exact funext fun x => funext fun y => firstMin_eq_min x y
  rw [leastOf, least, same]

omit [LinearOrder α] in
theorem sum_terms (x y : Vector α n)
    : (terms x y).sum = dot x y := by
  rw [terms, ← mulEntries, dot, ← mulEntries, total_eq_sum, toList_eq_ofFn, List.sum_ofFn]

/-- What a solver measures at a point, as far as a certificate states it. -/
structure AgreesWith (certificate : Certificate α) (p : LinearProgram α m n)
    (st : State engine m n)
    : Prop where
  primalResidual_eq : certificate.primalResidual = st.residual.primalNorm
  dualResidual_eq : certificate.dualResidual = st.residual.dualNorm
  complementarity_eq : certificate.complementarity = n * (p.measures st.point st.residual).mu
  primalObjective_eq : certificate.primalObjective = (p.measures st.point st.residual).primal
  dualObjective_eq : certificate.dualObjective = (p.measures st.point st.residual).dual
  relativeGap_eq : certificate.relativeGap = (st.result p).gap
  xLeast_eq : certificate.xLeast = least st.point.x
  sLeast_eq : certificate.sLeast = least st.point.s

/-- A certificate evaluated without rounding agrees with a solver that has computed its residual. -/
theorem agreesWith [CharZero α] (digits : Int) (p : LinearProgram α m n) (st : State engine m n)
    : (evaluate List.sum digits p st.point).AgreesWith p (st.updateResidual p) := by
  have image := products_eq p.matrix st.point
  have primal : (terms p.cost st.point.x).sum = p.objective st.point := sum_terms ..
  have dual : (terms p.rightSide st.point.lam).sum = p.dualObjective st.point := sum_terms ..
  exact {
    primalResidual_eq := by
      simp only [evaluate, image]
      exact greatest_map_magnitude _
    dualResidual_eq := by
      simp only [evaluate, image]
      exact greatest_map_magnitude _
    complementarity_eq := (sum_terms ..).trans (p.mul_mu st.point).symm
    primalObjective_eq := primal
    dualObjective_eq := dual
    relativeGap_eq := congrArg₂ InteriorPoint.relativeGap primal dual
    xLeast_eq := leastOf_toList _
    sLeast_eq := leastOf_toList _
  }

-----------------------------------------------------------------------------------------
-- What a certificate that passes proves
-----------------------------------------------------------------------------------------

/-- A certificate that passes leaves no feasible point much better than its own: by weak duality the
dual residual and the gap bound how much.
-/
theorem AgreesWith.objective_le [IsStrictOrderedRing α] {certificate : Certificate α}
    {p : LinearProgram α m n} {st : State engine m n} (cols : 0 < n)
    (agrees : certificate.AgreesWith p (st.updateResidual p))
    {tolerance : α} (passes : certificate.passed tolerance) {x' : Fin n → α} (hx : 0 ≤ x')
    (feasible : p.toMatrix *ᵥ x' = p.rightSide.get)
    : p.objective st.point
      ≤ p.cost.get ⬝ᵥ x' + tolerance * (1 + |p.objective st.point|)
        + tolerance * ∑ j, x' j := by
  simp only [passed, Bool.and_eq_true, decide_eq_true_iff] at passes
  obtain ⟨⟨⟨⟨-, dual⟩, gap⟩, -⟩, least⟩ := passes
  rw [agrees.dualResidual_eq] at dual
  rw [agrees.relativeGap_eq] at gap
  rw [agrees.sLeast_eq] at least
  have slack : 0 ≤ st.point.s.get := fun j =>
    least.trans ((least_isLeast cols st.point.s).2 ⟨j, rfl⟩)
  have apart
      : |p.objective st.point - p.dualObjective st.point|
        ≤ tolerance * (1 + |p.objective st.point|) := by
    have positive : 0 < 1 + |p.objective st.point| := by positivity
    have gap_eq : (State.result p (st.updateResidual p)).gap = _ :=
      InteriorPoint.relativeGap_eq ..
    rw [gap_eq] at gap
    exact (div_le_iff₀ positive).mp gap
  have bound := p.objective_le_cost slack hx feasible apart
  have size : 0 ≤ ∑ j, x' j := Finset.sum_nonneg fun j _ => hx j
  have violated : (p.residual st.point).dualNorm * ∑ j, x' j ≤ tolerance * ∑ j, x' j :=
    mul_le_mul_of_nonneg_right dual size
  linarith

end Certificate

/-- Parts that mean a program and a point have a certificate without rounding. A solver can be set
up for the same parts, and once the point is written over its own and the residual computed, it
measures what the certificate states. If the certificate passes, no feasible point is much better.
-/
theorem certificate_agrees [IsStrictOrderedRing α] {source : MatrixSource α}
    {a : Matrix (Fin m) (Fin n) α} (means : source.Denotes a) (rows : 0 < m) (cols : 0 < n)
    (rightSide : Vector α m) (cost : Vector α n) (y : Blocks α m n) (digits : Int)
    (backend : Backend engine (Target α))
    : ∃ (certificate : Certificate α) (matrix : Sparse α) (p : LinearProgram α m n)
          (st : State engine m n),
        Certificate.evaluateParts id List.sum digits source (.ofVector rightSide)
            (.ofVector cost) (.ofVector y.x) (.ofVector y.lam) (.ofVector y.s)
          = .ok certificate
        ∧ source.toSparse = .ok matrix
        ∧ AnyProgram.of matrix rightSide.toList cost.toList = .ok ⟨m, n, p⟩
        ∧ (State.initial p backend).writePoint y = .ok st
        ∧ certificate.AgreesWith p (st.updateResidual p)
        ∧ ∀ tolerance,
            certificate.passed tolerance
            → ∀ x', 0 ≤ x'
              → a *ᵥ x' = rightSide.get
              → cost.get ⬝ᵥ y.x.get
                ≤ cost.get ⬝ᵥ x' + tolerance * (1 + |cost.get ⬝ᵥ y.x.get|)
                  + tolerance * ∑ j, x' j := by
  obtain ⟨columns, loose, sparse, form⟩ := source.canonicalizes.1 a means
  let p : LinearProgram α m n := ⟨columns, rightSide, cost⟩
  let st : State engine m n := { State.initial p backend with point := y }
  have inside : (Loose.ofSparse ⟨m, n, columns⟩).fromEnd.sparse? = some ⟨m, n, columns⟩ := by
    rw [Loose.fromEnd_ofSparse, Loose.sparse?_ofSparse]
  have made := Certificate.evaluateParts_ofVector id List.sum digits rows cols loose
    (p := p) inside y
  rw [p.map_id, y.map_id] at made
  have agrees := Certificate.agreesWith digits p st
  refine ⟨_, _, p, st, made, sparse, AnyProgram.of_toList rows cols p, State.writePoint_eq ..,
    agrees, fun tolerance passes x' hx feasible => ?_⟩
  have matrix : p.toMatrix = a := form.means
  rw [← matrix] at feasible
  have bound := agrees.objective_le cols passes hx feasible
  have objective : p.objective st.point = cost.get ⬝ᵥ y.x.get := dot_eq_dotProduct ..
  rwa [objective] at bound

/-- An optimal point of the sample program. -/
def sampleOptimal : Blocks ℚ 1 2 where
  x := #v[0, 4]
  lam := #v[-2]
  s := #v[1, 0]

/-- Its certificate passes without any tolerance, so no feasible point costs less. -/
theorem certificate_agrees_optimal
    : ∃ certificate : Certificate ℚ,
        Certificate.evaluateParts id List.sum 50 (.dense ⟨[1, 2], [1, 1]⟩)
            (.ofVector LinearProgram.sample.rightSide) (.ofVector LinearProgram.sample.cost)
            (.ofVector sampleOptimal.x) (.ofVector sampleOptimal.lam) (.ofVector sampleOptimal.s)
          = .ok certificate
        ∧ certificate.passed 0
        ∧ ∀ x' : Fin 2 → ℚ, 0 ≤ x'
          → !![1, 1] *ᵥ x' = LinearProgram.sample.rightSide.get
          → -8 ≤ LinearProgram.sample.cost.get ⬝ᵥ x' := by
  have means
      : MatrixSource.Denotes (.dense ⟨[1, 2], [1, 1]⟩) (!![1, 1] : Matrix (Fin 1) (Fin 2) ℚ) := by
    refine .dense [1, 1] fun i j => ?_
    fin_cases i
    fin_cases j <;> rfl
  obtain ⟨certificate, _, _, _, made, -, -, -, -, bounds⟩ := certificate_agrees means (by decide)
    (by decide) LinearProgram.sample.rightSide LinearProgram.sample.cost sampleOptimal 50
    (.fresh (Direct.engine .dense : Engine ℚ Unit) ())
  have checked
      : (Certificate.evaluateParts id List.sum 50 (.dense ⟨[1, 2], [1, 1]⟩)
          (.ofVector LinearProgram.sample.rightSide) (.ofVector LinearProgram.sample.cost)
          (.ofVector sampleOptimal.x) (.ofVector sampleOptimal.lam)
          (.ofVector sampleOptimal.s)).toOption.any (·.passed 0) = true := by
    decide +kernel
  have passes : certificate.passed 0 := by
    rw [made] at checked
    exact checked
  have cost : LinearProgram.sample.cost.get ⬝ᵥ sampleOptimal.x.get = -8 := by decide +kernel
  refine ⟨certificate, made, passes, fun x' hx feasible => ?_⟩
  have bound := bounds 0 passes x' hx feasible
  rwa [cost, zero_mul, zero_mul, add_zero, add_zero] at bound

end InteriorPoint
