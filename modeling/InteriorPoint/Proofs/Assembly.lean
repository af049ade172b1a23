import InteriorPoint.Method.Jacobian
import InteriorPoint.Proofs.Places

/-! Assembly of the Jacobian. Each of its five blocks is put as a whole where there is room for
it, so what assembly leaves is known entry by entry, and it succeeds exactly with full room.
-/

namespace InteriorPoint

variable {α : Type} {m n : Nat}

/-- A computation that begins with a step that succeeds goes on with the value of the step. -/
theorem bind_eq_of_ok {ε β γ : Type} {x : Except ε β} {f : β → Except ε γ} {b : β}
    {result : Except ε γ} (first : x = .ok b) (rest : f b = result)
    : x >>= f = result := by
  rw [first]
  exact rest

/-- A computation that succeeds began with a step that succeeded. -/
theorem bind_ok {ε β γ : Type} {x : Except ε β} {f : β → Except ε γ} {c : γ}
    (h : x >>= f = .ok c)
    : ∃ b, x = .ok b ∧ f b = .ok c := by
  cases x with
  | error e => simp [bind, Except.bind] at h
  | ok b => exact ⟨b, rfl, h⟩

/-- A computation whose value is changed succeeds where it succeeded before. -/
theorem map_ok {ε β γ : Type} {x : Except ε β} {f : β → γ} {c : γ} (h : x.map f = .ok c)
    : ∃ b, x = .ok b ∧ f b = c := by
  cases x with
  | error e => cases h
  | ok b => exact ⟨b, rfl, Except.ok.inj h⟩

/-- It fails with the fault of before. -/
theorem map_error {ε β γ : Type} {x : Except ε β} {f : β → γ} {e : ε} (h : x.map f = .error e)
    : x = .error e := by
  cases x with
  | error other => exact congrArg Except.error (Except.error.inj h)
  | ok b => cases h

/-- A computation that fails does so in its first step, or after that succeeded. -/
theorem bind_error {ε β γ : Type} {x : Except ε β} {f : β → Except ε γ} {e : ε}
    (h : x >>= f = .error e)
    : x = .error e ∨ ∃ b, x = .ok b ∧ f b = .error e := by
  cases x with
  | error other =>
      obtain rfl := Except.error.inj h
      exact .inl rfl
  | ok b => exact .inr ⟨b, rfl, h⟩

/-- A computation whose fault is changed failed before. -/
theorem mapError_error {ε δ β : Type} {x : Except ε β} {f : ε → δ} {e : δ}
    (h : x.mapError f = .error e)
    : ∃ fault, x = .error fault ∧ f fault = e := by
  cases x with
  | error fault => exact ⟨fault, rfl, Except.error.inj h⟩
  | ok b => cases h

/-- It succeeds with the value of before. -/
theorem mapError_ok {ε δ β : Type} {x : Except ε β} {f : ε → δ} {b : β}
    (h : x.mapError f = .ok b)
    : x = .ok b := by
  cases x with
  | error fault => cases h
  | ok found => exact congrArg Except.ok (Except.ok.inj h)

namespace Triplet

/-- What putting a number of entries does to room and count; the entries that are there fit. -/
structure Grew (t next : Triplet α m n) (added : Nat) : Prop where
  count_eq : next.count = t.count + added
  capacity_eq : next.capacity = t.capacity
  room : t.count + added ≤ t.capacity

/-- A block is put only where there is room for it. -/
theorem append_ok {t next : Triplet α m n} {block : List (Entry α m n)}
    (done : t.append block = .ok next)
    : t.Grew next block.length := by
  simp only [append] at done
  split at done
  · simp at done
  · next room =>
      obtain rfl := Except.ok.inj done
      exact ⟨List.length_append, rfl, not_lt.mp room⟩

theorem putDiagonal_ok {t next : Triplet α m n} {i j : Int} {values : List α}
    (done : t.putDiagonal i j values = .ok next)
    : t.Grew next values.length := by
  simp only [putDiagonal] at done
  split at done
  · simpa [diagonal] using append_ok done
  · simp at done

theorem putWithTranspose_ok {p q : Nat} {t next : Triplet α m n} {es : List (Entry α p q)}
    (done : t.putWithTranspose es = .ok next)
    : t.Grew next (2 * es.length) := by
  simp only [putWithTranspose] at done
  split at done
  · simpa [crossBlocks, two_mul] using append_ok done
  · simp at done

/-- No step of an assembly changes the capacity, since all of them put blocks or start over. -/
theorem capacity_apply {t next : Triplet α m n} {command : Command α}
    (done : t.apply command = .ok next)
    : next.capacity = t.capacity := by
  cases command with
  | start =>
      obtain rfl := Except.ok.inj done
      rfl
  | put i j value =>
      simp only [apply, put] at done
      split at done
      · exact (append_ok done).capacity_eq
      · simp at done
  | diagonal i j values =>
      simp only [apply, putDiagonal] at done
      split at done
      · exact (append_ok done).capacity_eq
      · simp at done
  | matrix a =>
      simp only [apply, putWithTranspose] at done
      split at done
      · exact (append_ok done).capacity_eq
      · simp at done

/-- A block that there is room for is put as a whole. -/
theorem append_eq {t : Triplet α m n} {block : List (Entry α m n)}
    (room : t.count + block.length ≤ t.capacity)
    : t.append block = .ok { t with entries := t.entries ++ block } := by
  rw [append, if_neg (by omega)]

/-- A run down a diagonal that stays inside is the diagonal matrix of its values, placed where
the run starts.
-/
theorem diagonal_eq_place {p : Nat} (i j : Nat) (v : Vector α p) (row : Fin p → Fin m)
    (col : Fin p → Fin n) (rows : ∀ k, (row k).val = i + k) (cols : ∀ k, (col k).val = j + k)
    (hi : i + v.toList.length ≤ m) (hj : j + v.toList.length ≤ n)
    : diagonal i j v.toList hi hj = (Entries.diagonal v).map (Entry.place row col) := by
  apply List.ext_getElem
  · simp [diagonal, Entries.diagonal]
  · intro k _ _
    simp [diagonal, Entries.diagonal, Entry.place, Fin.ext_iff, rows, cols]

/-- A diagonal that stays inside and that there is room for is put as a whole. -/
theorem putDiagonal_eq {p : Nat} {t : Triplet α m n} (i j : Nat) (v : Vector α p)
    (row : Fin p → Fin m) (col : Fin p → Fin n) (rows : ∀ k, (row k).val = i + k)
    (cols : ∀ k, (col k).val = j + k) (hi : i + p ≤ m) (hj : j + p ≤ n)
    (room : t.count + p ≤ t.capacity)
    : t.putDiagonal i j v.toList
      = .ok { t with
          entries := t.entries ++ (Entries.diagonal v).map (Entry.place row col) } := by
  have inside : (0 ≤ (i : Int) ∧ i + v.toList.length ≤ m)
      ∧ 0 ≤ (j : Int) ∧ j + v.toList.length ≤ n := by
    simp only [Vector.length_toList]
    omega
  rw [putDiagonal, dif_pos (by exact_mod_cast inside)]
  rw [append_eq (by simpa [diagonal] using room)]
  have same := diagonal_eq_place i j v row col rows cols (by simpa using hi) (by simpa using hj)
  rw [← same]
  rfl

/-- A matrix and its transpose that there is room for are put as a whole, the transpose first. -/
theorem putWithTranspose_eq {t : Triplet α (n + m + n) (n + m + n)} (es : List (Entry α m n))
    (room : t.count + 2 * es.length ≤ t.capacity)
    : t.putWithTranspose es
      = .ok { t with
          entries := t.entries
            ++ ((es.map Entry.transpose).map (Entry.place Blocks.xPlace Blocks.lamPlace)
              ++ es.map (Entry.place Blocks.lamPlace Blocks.xPlace)) } := by
  have fits : m + n ≤ n + m + n ∧ m + n ≤ n + m + n := by omega
  rw [putWithTranspose, dif_pos fits]
  rw [append_eq (by simp only [crossBlocks, List.length_append, List.length_map]; omega),
    List.map_map]
  rfl

end Triplet

namespace Columns

/-- The entries of a Jacobian over a constraint matrix: the transposed matrix, the matrix, a unit
diagonal, the slacks and the variables, each block at the places of its rows and columns.
-/
def jacobianEntries [One α] (a : Columns α m n) (x s : Vector α n)
    : List (Entry α (n + m + n) (n + m + n)) :=
  (a.entries.map Entry.transpose).map (Entry.place Blocks.xPlace Blocks.lamPlace)
    ++ a.entries.map (Entry.place Blocks.lamPlace Blocks.xPlace)
    ++ (Entries.diagonal (Vector.replicate n 1)).map (Entry.place Blocks.xPlace Blocks.sPlace)
    ++ (Entries.diagonal s).map (Entry.place Blocks.sPlace Blocks.xPlace)
    ++ (Entries.diagonal x).map (Entry.place Blocks.sPlace Blocks.sPlace)

theorem length_jacobianEntries [One α] (a : Columns α m n) (x s : Vector α n)
    : (a.jacobianEntries x s).length = 2 * a.count + 3 * n := by
  simp only [jacobianEntries, count, Entries.length_diagonal, List.length_append,
    List.length_map]
  omega

end Columns

namespace LinearProgram

/-- Where there is room, assembly succeeds and leaves the five blocks alone, whatever was there
before.
-/
theorem assemble_eq [One α] (p : LinearProgram α m n) (y : Blocks α m n)
    {t : Triplet α (n + m + n) (n + m + n)} (room : p.jacobianCapacity ≤ t.capacity)
    : p.assemble y t = .ok { t with entries := p.matrix.jacobianEntries y.x y.s } := by
  have ones : List.replicate n (1 : α) = (Vector.replicate n (1 : α)).toList := by simp
  have atX (k : Fin n) : (Blocks.xPlace k : Fin (n + m + n)).val = 0 + k := by
    simp [Blocks.xPlace]
  have atS (k : Fin n) : (Blocks.sPlace k : Fin (n + m + n)).val = n + m + k := rfl
  simp only [jacobianCapacity, Columns.count] at room
  rw [assemble, ones]
  refine bind_eq_of_ok (Triplet.putWithTranspose_eq _ ?_) ?_
  · simp only [Triplet.start, Triplet.count, List.length_nil]
    omega
  refine bind_eq_of_ok
    (Triplet.putDiagonal_eq 0 (n + m) _ _ _ atX atS (by omega) (by omega) ?_) ?_
  · simp [Triplet.start, Triplet.count]
    omega
  refine bind_eq_of_ok
    (Triplet.putDiagonal_eq (n + m) 0 _ _ _ atS atX (by omega) (by omega) ?_) ?_
  · simp [Triplet.start, Triplet.count]
    omega
  refine Triplet.putDiagonal_eq (n + m) (n + m) _ _ _ atS atS (by omega) (by omega) ?_
  simp [Triplet.start, Triplet.count]
  omega

/-- Where assembly succeeds there is room for all of it, since each block found room for itself. -/
theorem room_of_assemble [One α] {p : LinearProgram α m n} {y : Blocks α m n}
    {t next : Triplet α (n + m + n) (n + m + n)} (done : p.assemble y t = .ok next)
    : p.jacobianCapacity ≤ t.capacity := by
  rw [assemble] at done
  obtain ⟨first, crossed, done⟩ := bind_ok done
  obtain ⟨second, unit, done⟩ := bind_ok done
  obtain ⟨third, below, corner⟩ := bind_ok done
  have one := Triplet.putWithTranspose_ok crossed
  have two := Triplet.putDiagonal_ok unit
  have three := Triplet.putDiagonal_ok below
  have four := (Triplet.putDiagonal_ok corner).room
  rw [three.capacity_eq, three.count_eq, two.capacity_eq, two.count_eq, one.capacity_eq,
    one.count_eq] at four
  simp only [Triplet.start, Triplet.count, List.length_nil, List.length_replicate,
    Vector.length_toList] at four
  simp only [jacobianCapacity, Columns.count]
  omega

/-- So an assembly that succeeds leaves the five blocks alone, into whatever it was made. -/
theorem entries_of_assemble [One α] {p : LinearProgram α m n} {y : Blocks α m n}
    {t next : Triplet α (n + m + n) (n + m + n)} (done : p.assemble y t = .ok next)
    : next.entries = p.matrix.jacobianEntries y.x y.s := by
  rw [p.assemble_eq y (room_of_assemble done)] at done
  obtain rfl := Except.ok.inj done
  rfl

end LinearProgram

end InteriorPoint
