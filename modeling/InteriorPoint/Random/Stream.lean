/-! Streams of random numbers. A stream is a counter that moves by an odd step, whose bits are
mixed anew for each number, so equal seeds give equal draws.
-/

namespace InteriorPoint

/-- A stream of random numbers, given by its counter. -/
structure RandomStream where
  counter : UInt64

namespace RandomStream

/-- The stream of a seed. -/
def ofSeed (seed : Nat) : RandomStream :=
  ⟨UInt64.ofNat seed⟩

/-- The next number and the stream after it. -/
def next (s : RandomStream) : UInt64 × RandomStream :=
  let counter := s.counter + 0x9E3779B97F4A7C15
  let a := (counter ^^^ (counter >>> 30)) * 0xBF58476D1CE4E5B9
  let b := (a ^^^ (a >>> 27)) * 0x94D049BB133111EB
  (b ^^^ (b >>> 31), ⟨counter⟩)

/-- A number below `n + 1`. -/
def below (n : Nat) (s : RandomStream) : Fin (n + 1) × RandomStream :=
  let (bits, s) := s.next
  (Fin.ofNat (n + 1) (bits.toNat * (n + 1) / Nat.pow 2 64), s)

/-- A double between two bounds, from 53 random bits. -/
def uniform (low high : Float) (s : RandomStream) : Float × RandomStream :=
  let (bits, s) := s.next
  let fraction := (Float.ofNat (bits.toNat / Nat.pow 2 11)).scaleB (-53)
  (low + (high - low) * fraction, s)

/-- A double with mean zero and variance one: the sum of twelve uniform ones, less its mean. -/
def spread (s : RandomStream) : Float × RandomStream :=
  (List.range 12).foldl
    (fun (sum, s) _ =>
      let (x, s) := s.uniform 0 1
      (sum + x, s))
    (-6, s)

/-- Draws the entries of a vector one after another. -/
def vector {β : Type} (n : Nat) (draw : RandomStream → β × RandomStream) (s : RandomStream)
    : Vector β n × RandomStream :=
  match n with
  | 0 => (#v[], s)
  | n + 1 =>
      let (rest, s) := vector n draw s
      let (x, s) := draw s
      (rest.push x, s)

/-- Exchanges each of the first `k` items, from the last of them down, with one that is not
after it.
-/
def shuffleFirst {β : Type} {n : Nat} (items : Vector β n)
    : (k : Nat) → k ≤ n → RandomStream → { mixed : Vector β n // mixed.Perm items } × RandomStream
  | 0, _, s => (⟨items, .rfl⟩, s)
  | k + 1, h, s =>
      let (j, s) := s.below k
      let (mixed, s) := shuffleFirst (items.swap k j) k (by omega) s
      (⟨mixed.val, mixed.property.trans (Vector.swap_perm _ _)⟩, s)

/-- Puts items into a random order. -/
def shuffle {β : Type} {n : Nat} (items : Vector β n) (s : RandomStream)
    : { mixed : Vector β n // mixed.Perm items } × RandomStream :=
  shuffleFirst items n (Nat.le_refl n) s

end RandomStream

end InteriorPoint
