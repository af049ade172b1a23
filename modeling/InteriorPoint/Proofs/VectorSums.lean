import InteriorPoint.Linear.Vector
import InteriorPoint.Proofs.OrderedScalar

/-! Vectors as functions of their index. Totals are finite sums, inner products are the ones of
matrix algebra, and the entrywise operations are the pointwise ones.
-/

namespace InteriorPoint

open scoped Matrix

section Entrywise

variable {α : Type} {n : Nat}

theorem vector_ext_get {x y : Vector α n} (h : x.get = y.get)
    : x = y := by
  apply Vector.ext
  intro i hi
  exact congrFun h ⟨i, hi⟩

@[simp]
theorem get_ofFn (f : Fin n → α)
    : (Vector.ofFn f).get = f := by
  funext i
  simp

theorem toList_eq_ofFn (x : Vector α n)
    : x.toList = List.ofFn x.get := by
  rw [← Vector.toList_ofFn]
  congr 1
  exact vector_ext_get (by rw [get_ofFn])

@[simp]
theorem get_replicate (value : α)
    : (Vector.replicate n value).get = fun _ => value := by
  funext i
  simp

theorem get_addVec [Add α] (x y : Vector α n)
    : (addVec x y).get = x.get + y.get := by
  funext i
  simp [addVec]

theorem get_subVec [Sub α] (x y : Vector α n)
    : (subVec x y).get = x.get - y.get := by
  funext i
  simp [subVec]

theorem get_mulEntries [Mul α] (x y : Vector α n)
    : (mulEntries x y).get = x.get * y.get := by
  funext i
  simp [mulEntries]

theorem get_descend [Sub α] [Mul α] (x : Vector α n) (a : α) (d : Vector α n)
    : (descend x a d).get = x.get - a • d.get := by
  funext i
  simp [descend]

theorem get_shift [Add α] (x : Vector α n) (d : α)
    : (shift x d).get = fun i => x.get i + d := by
  funext i
  simp [shift]

end Entrywise

section Sums

variable {α : Type} [Field α] {n : Nat}

/-- Adding from the first entry to the last gives the sum over all indices. -/
theorem total_eq_sum (x : Vector α n)
    : total x = ∑ i, x.get i := by
  rw [total, ← Vector.foldl_toList, ← List.sum_eq_foldl, toList_eq_ofFn, List.sum_ofFn]

theorem dot_eq_dotProduct (x y : Vector α n)
    : dot x y = x.get ⬝ᵥ y.get := by
  rw [dot, total_eq_sum]
  simp [dotProduct]

end Sums

section Extremes

variable {α : Type}

/-- A fold of minima is one of the items and lies below all of them, by induction on the items
after the first.
-/
theorem foldl_min_isLeast [LinearOrder α] (first : α) (rest : List α)
    : IsLeast {a | a ∈ first :: rest} (rest.foldl min first) := by
  induction rest generalizing first with
  | nil => simp [IsLeast, lowerBounds]
  | cons head rest ih =>
      obtain ⟨member, below⟩ := ih (min first head)
      have start : rest.foldl min (min first head) ≤ min first head :=
        below (List.mem_cons_self ..)
      constructor
      · rcases List.mem_cons.mp member with same | later
        · change rest.foldl min (min first head) ∈ first :: head :: rest
          rw [same]
          rcases min_choice first head with h | h <;> simp [h]
        · exact List.mem_cons_of_mem _ (List.mem_cons_of_mem _ later)
      · intro a found
        rcases List.mem_cons.mp found with rfl | found
        · exact start.trans (min_le_left ..)
        · rcases List.mem_cons.mp found with rfl | later
          · exact start.trans (min_le_right ..)
          · exact below (List.mem_cons_of_mem _ later)

/-- Maxima are minima of the opposite order. -/
theorem foldl_max_isGreatest [LinearOrder α] (first : α) (rest : List α)
    : IsGreatest {a | a ∈ first :: rest} (rest.foldl max first) :=
  foldl_min_isLeast (α := αᵒᵈ) first rest

/-- The items of a nonempty vector are the values of its function, the first one apart. -/
theorem exists_cons_eq_ofFn {n : Nat} (hn : 0 < n) (v : Fin n → α)
    : ∃ first rest, List.ofFn v = first :: rest ∧ {a | a ∈ first :: rest} = Set.range v := by
  obtain ⟨k, rfl⟩ : ∃ k, n = k + 1 := ⟨n - 1, by omega⟩
  refine ⟨v 0, List.ofFn fun i => v i.succ, List.ofFn_succ .., ?_⟩
  ext a
  change a ∈ v 0 :: List.ofFn (fun i => v i.succ) ↔ _
  rw [← List.ofFn_succ]
  exact List.mem_ofFn

variable [Field α] [LinearOrder α]

/-- The least entry of a vector that has entries is a lower bound that is attained. -/
theorem least_isLeast {n : Nat} (hn : 0 < n) (x : Vector α n)
    : IsLeast (Set.range x.get) (least x) := by
  obtain ⟨first, rest, items, range⟩ := exists_cons_eq_ofFn hn x.get
  rw [least, lesser_eq_min, toList_eq_ofFn, items, ← range]
  exact foldl_min_isLeast first rest

/-- The norm of a vector that has entries is the greatest absolute value of one of them. -/
theorem supNorm_isGreatest [IsStrictOrderedRing α] {n : Nat} (hn : 0 < n) (x : Vector α n)
    : IsGreatest (Set.range fun i => |x.get i|) (supNorm x) := by
  have sizes : x.toList.map magnitude = List.ofFn fun i => |x.get i| := by
    rw [toList_eq_ofFn, List.map_ofFn]
    congr 1
    funext i
    simp
  obtain ⟨first, rest, items, range⟩ := exists_cons_eq_ofFn hn fun i => |x.get i|
  rw [supNorm, greater_eq_max, sizes, items, ← range]
  exact foldl_max_isGreatest first rest

theorem abs_get_le_supNorm [IsStrictOrderedRing α] {n : Nat} (x : Vector α n) (i : Fin n)
    : |x.get i| ≤ supNorm x :=
  (supNorm_isGreatest i.pos x).2 ⟨i, rfl⟩

/-- Entries that are smaller in size make a smaller norm. -/
theorem supNorm_le_supNorm [IsStrictOrderedRing α] {n : Nat} {x y : Vector α n}
    (h : ∀ i, |x.get i| ≤ |y.get i|)
    : supNorm x ≤ supNorm y := by
  rcases Nat.eq_zero_or_pos n with rfl | hn
  · rw [vector_ext_get (x := x) (y := y) (Subsingleton.elim ..)]
  · obtain ⟨i, attained⟩ := (supNorm_isGreatest hn x).1
    rw [← attained]
    exact (h i).trans (abs_get_le_supNorm y i)

/-- Scaling by at most one in size makes no norm greater. -/
theorem supNorm_le_of_eq_smul [IsStrictOrderedRing α] {n : Nat} {x y : Vector α n} {factor : α}
    (share : factor ∈ Set.Icc 0 1) (h : x.get = factor • y.get)
    : supNorm x ≤ supNorm y := by
  refine supNorm_le_supNorm fun i => ?_
  rw [h, Pi.smul_apply, smul_eq_mul, abs_mul, abs_of_nonneg share.1]
  exact mul_le_of_le_one_left (abs_nonneg _) share.2

end Extremes

end InteriorPoint
