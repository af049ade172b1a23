import InteriorPoint.Scalar

/-! Sums, extremes and entrywise operations of vectors. Sums run from the first entry to the
last and start at zero.
-/

namespace InteriorPoint

variable {α : Type} {n : Nat}

@[simp]
theorem get_eq_getElem (x : Vector α n) (i : Fin n) : x.get i = x[i.val] :=
  rfl

/-- The sum of the entries. -/
def total [Zero α] [Add α] (x : Vector α n) : α :=
  x.foldl (· + ·) 0

/-- The inner product. -/
def dot [Zero α] [Add α] [Mul α] (x y : Vector α n) : α :=
  total (Vector.zipWith (· * ·) x y)

/-- Folds a nonempty list from its first item; an empty one gives zero. -/
def foldFirst [Zero α] (f : α → α → α) : List α → α
  | [] => 0
  | x :: rest => rest.foldl f x

/-- The least entry, undefined as soon as one entry is. -/
def least [Zero α] [LT α] [LE α] [DecidableLT α] [DecidableLE α] (x : Vector α n) : α :=
  foldFirst lesser x.toList

/-- The greatest absolute value of an entry, undefined as soon as one entry is. -/
def supNorm [Zero α] [Neg α] [LT α] [LE α] [DecidableLT α] [DecidableLE α]
    (x : Vector α n) : α :=
  foldFirst greater (x.toList.map magnitude)

/-- Adds one number to every entry. -/
def shift [Add α] (x : Vector α n) (d : α) : Vector α n :=
  x.map (· + d)

/-- The entrywise sum. -/
def addVec [Add α] (x y : Vector α n) : Vector α n :=
  Vector.zipWith (· + ·) x y

/-- The entrywise difference. -/
def subVec [Sub α] (x y : Vector α n) : Vector α n :=
  Vector.zipWith (· - ·) x y

/-- The entrywise product. -/
def mulEntries [Mul α] (x y : Vector α n) : Vector α n :=
  Vector.zipWith (· * ·) x y

/-- `x` moved by `-a` times `d`. -/
def descend [Sub α] [Mul α] (x : Vector α n) (a : α) (d : Vector α n) : Vector α n :=
  Vector.zipWith (fun xi di => xi - a * di) x d

/-- Whether every entry is finite. -/
def allFinite [Zero α] [Sub α] [LE α] [DecidableLE α] (x : Vector α n) : Bool :=
  x.all isFinite

/-- A matrix with every entry stored, row by row. -/
abbrev Grid (α : Type) (m n : Nat) : Type :=
  Vector (Vector α n) m

namespace Grid

variable {m : Nat}

/-- The grid of a function of row and column. -/
def ofFn (f : Fin m → Fin n → α) : Grid α m n :=
  Vector.ofFn fun i => Vector.ofFn fun j => f i j

/-- The entry in a row and a column. -/
def entry (a : Grid α m n) (i : Fin m) (j : Fin n) : α :=
  (a.get i).get j

/-- The same grid with another entry in a row and a column. -/
def setEntry (a : Grid α m n) (i : Fin m) (j : Fin n) (value : α) : Grid α m n :=
  a.set i ((a.get i).set j value j.isLt) i.isLt

/-- The grid with rows and columns exchanged. -/
def transpose (a : Grid α m n) : Grid α n m :=
  ofFn fun j i => a.entry i j

@[simp]
theorem entry_ofFn (f : Fin m → Fin n → α) (i : Fin m) (j : Fin n)
    : (ofFn f).entry i j = f i j := by
  simp [entry, ofFn]

/-- A grid is determined by its entries. -/
theorem ext_entry {a b : Grid α m n} (h : ∀ i j, a.entry i j = b.entry i j) : a = b := by
  apply Vector.ext
  intro i hi
  apply Vector.ext
  intro j hj
  exact h ⟨i, hi⟩ ⟨j, hj⟩

end Grid

end InteriorPoint
