import InteriorPoint.Proofs.StoppingTest
import InteriorPoint.Proofs.WholeDoubles
import InteriorPoint.Report.Kind

/-! Which settings make a configuration, and which one. Values are accepted by what they convert to,
and of several values that are refused the first in a fixed order is reported.
-/

namespace InteriorPoint

open Decimal Decimal.Binary

-----------------------------------------------------------------------------------------
-- Conversions
-----------------------------------------------------------------------------------------

namespace Setting

/-- A value that is a whole number, or a double equal to one. -/
inductive Value.IsWhole : Value → Int → Prop
  | int (n : Int) : IsWhole (.int n) n
  | float {x : Float} {n : Int} (finite : (ofFloat x).IsFinite) (whole : doubleValue x = n)
    : IsWhole (.float x) n

theorem Value.toCount_eq_exactly_iff {value : Value} {n : Int}
    : value.toCount = .ok (.exactly n) ↔ value.IsWhole n := by
  constructor
  · intro count
    cases value with
    | int k =>
        cases count
        exact .int _
    | float x =>
        have whole : (ofFloat x).toInt? = some n := by
          rw [toCount] at count
          split at count
          · cases count
          · cases count
          · split at count
            · next equal =>
                cases count
                exact equal
            · cases count
        obtain ⟨finite, equal⟩ := toInt?_eq_some_iff.mp whole
        exact .float finite equal
    | text s =>
        rw [toCount] at count
        split at count <;> cases count
    | absent | bool | list | map => cases count
  · rintro (n | ⟨finite, equal⟩)
    · rfl
    · next x =>
        have whole := toInt?_eq_some_iff.mpr ⟨finite, equal⟩
        rw [toCount]
        split
        · next undefined =>
            rw [undefined] at finite
            exact finite.elim
        · next infinite =>
            rw [infinite] at finite
            exact finite.elim
        · rw [whole]

/-- The double that a value converts to. Truth values count as one and zero, whole numbers are
rounded if they are not too great for that, and texts are read.
-/
inductive Value.ConvertsTo : Value → Float → Prop
  | bool (b : Bool) : ConvertsTo (.bool b) (if b then 1 else 0)
  | int {n : Int} {x : Float} (nearest : IsDoubleOf n x) : ConvertsTo (.int n) x
  | float (x : Float) : ConvertsTo (.float x) x
  | text {s : String} {x : Float} (read : double? s = some x) : ConvertsTo (.text s) x

theorem doubleOfInt_eq_ok_iff {n : Int} {x : Float} : doubleOfInt n = .ok x ↔ IsDoubleOf n x := by
  rw [isDoubleOf_iff, doubleOfInt, ← isFinite_iff]
  split
  · next finite => rw [Except.ok.injEq, and_iff_right finite]
  · next infinite => simp [infinite]

theorem Value.toDouble_eq_ok_iff {value : Value} {x : Float}
    : value.toDouble = .ok x ↔ value.ConvertsTo x := by
  constructor
  · intro converted
    cases value with
    | bool b =>
        cases converted
        exact .bool b
    | int n => exact .int (doubleOfInt_eq_ok_iff.mp converted)
    | float y =>
        cases converted
        exact .float x
    | text s =>
        rw [toDouble] at converted
        split at converted
        · next read =>
            cases converted
            exact .text read
        · cases converted
    | absent | list | map => cases converted
  · rintro (_ | nearest | _ | read)
    · rfl
    · exact doubleOfInt_eq_ok_iff.mpr nearest
    · rfl
    · rw [toDouble, read]

/-- A value that converts to a positive finite double. -/
structure Value.IsTolerance (value : Value) (x : Float) : Prop where
  converts : value.ConvertsTo x
  isFinite : (ofFloat x).IsFinite
  positive : 0 < doubleValue x

/-- A tolerance that is read is one that can be given. -/
theorem Value.IsTolerance.again {value : Value} {x : Float} (h : value.IsTolerance x)
    : (Value.float x).IsTolerance x :=
  ⟨.float x, h.isFinite, h.positive⟩

/-- A tolerance, or nothing if it is left open. -/
inductive Value.IsFeasibility : Value → Option Float → Prop
  | absent : IsFeasibility .absent none
  | tolerance {value : Value} {x : Float} (h : value.IsTolerance x) : IsFeasibility value (some x)

end Setting

namespace Config

open Setting

theorem readLimit_eq_ok_iff {value : Value} {n : Nat}
    : readLimit value = .ok n ↔ value.IsWhole n := by
  rw [← Value.toCount_eq_exactly_iff, readLimit]
  cases value.toCount with
  | error fault => simp
  | ok count =>
      cases count with
      | other => simp
      | exactly k =>
          dsimp only
          split_ifs with nonneg long
          · rw [Except.ok.injEq, Except.ok.injEq, Count.exactly.injEq]
            omega
          · simp
            omega
          · simp
            omega

theorem readTolerance_eq_ok_iff {which : Tolerance} {value : Value} {x : Float}
    : readTolerance which value = .ok x ↔ value.IsTolerance x := by
  have fields
      : value.IsTolerance x
        ↔ value.toDouble = .ok x ∧ (isFinite x && decide (0 < x)) = true := by
    rw [Bool.and_eq_true, decide_eq_true_iff, isFinite_iff, Value.toDouble_eq_ok_iff,
      ← doubleValue_pos_iff]
    exact ⟨fun h => ⟨h.converts, h.isFinite, h.positive⟩, fun h => ⟨h.1, h.2.1, h.2.2⟩⟩
  rw [fields, readTolerance]
  cases value.toDouble with
  | error fault => simp
  | ok y =>
      dsimp only
      rw [Except.ok.injEq]
      split
      · next kept =>
          rw [Except.ok.injEq]
          exact ⟨fun equal => ⟨equal, equal ▸ kept⟩, And.left⟩
      · next refused =>
          refine iff_of_false (by simp) ?_
          rintro ⟨rfl, kept⟩
          exact refused kept

theorem readFeasibility_of_ne {value : Value} (given : value ≠ .absent)
    : readFeasibility value = (readTolerance .feasibility value).map some := by
  cases value with
  | absent => exact absurd rfl given
  | bool | int | float | text | list | map => rfl

theorem readFeasibility_eq_ok_iff {value : Value} {tolerance : Option Float}
    : readFeasibility value = .ok tolerance ↔ value.IsFeasibility tolerance := by
  by_cases absent : value = .absent
  · subst absent
    constructor
    · intro read
      cases read
      exact .absent
    · rintro (_ | ⟨⟨converts, -, -⟩⟩)
      · rfl
      · cases converts
  · rw [readFeasibility_of_ne absent]
    constructor
    · intro read
      cases found : readTolerance .feasibility value with
      | error fault =>
          rw [found] at read
          cases read
      | ok x =>
          rw [found] at read
          cases read
          exact .tolerance (readTolerance_eq_ok_iff.mp found)
    · rintro (_ | tolerance)
      · exact absurd rfl absent
      · rw [readTolerance_eq_ok_iff.mpr tolerance, Except.map]

-----------------------------------------------------------------------------------------
-- What is accepted
-----------------------------------------------------------------------------------------

/-- The configuration that settings stand for: their values, and the standard ones for those that
are missing.
-/
structure Describes (settings : List (String × Value)) (config : Config Float) : Prop where
  limit : (lookup? "nmaxit" settings).elim (config.iterationLimit = 50)
    (·.IsWhole config.iterationLimit)
  gap : (lookup? "tol" settings).elim (config.gapTolerance = 1e-8)
    (·.IsTolerance config.gapTolerance)
  feasibility : (lookup? "feastol" settings).elim (config.feasibilityTolerance = none)
    (·.IsFeasibility config.feasibilityTolerance)

/-- What a caller may hand over for a configuration: nothing, or settings. -/
inductive IsGivenBy (config : Config Float) : Value → Prop
  | standard (settings : Describes [] config) : IsGivenBy config .absent
  | settings {settings : List (String × Value)} (h : Describes settings config)
    : IsGivenBy config (.map settings)

/-- A setting that is missing keeps its standard value. -/
theorem elim_eq_ok_iff {β : Type} {given : Option Value} {kept b : β}
    {read : Value → Except Fault β} {accepted : Value → Prop}
    (spec : ∀ value, read value = .ok b ↔ accepted value)
    : given.elim (pure kept) read = .ok b ↔ given.elim (b = kept) accepted := by
  cases given with
  | none =>
      change Except.ok kept = .ok b ↔ b = kept
      rw [Except.ok.injEq, eq_comm]
  | some value => exact spec value

theorem ofSettings_eq_ok_iff {settings : List (String × Value)} {config : Config Float}
    : ofSettings settings = .ok config ↔ Describes settings config := by
  rw [ofSettings_eq]
  constructor
  · intro read
    obtain ⟨limit, first, rest⟩ := bind_ok read
    obtain ⟨gap, second, rest⟩ := bind_ok rest
    obtain ⟨feasibility, third, made⟩ := bind_ok rest
    cases made
    exact {
      limit := (elim_eq_ok_iff fun _ => readLimit_eq_ok_iff).mp first
      gap := (elim_eq_ok_iff fun _ => readTolerance_eq_ok_iff).mp second
      feasibility := (elim_eq_ok_iff fun _ => readFeasibility_eq_ok_iff).mp third
    }
  · rintro ⟨limit, gap, feasibility⟩
    exact bind_eq_of_ok ((elim_eq_ok_iff fun _ => readLimit_eq_ok_iff).mpr limit)
      (bind_eq_of_ok ((elim_eq_ok_iff fun _ => readTolerance_eq_ok_iff).mpr gap)
        (bind_eq_of_ok ((elim_eq_ok_iff fun _ => readFeasibility_eq_ok_iff).mpr feasibility) rfl))

theorem ofValue_eq_ok_iff {params : Value} {config : Config Float}
    : ofValue params = .ok config ↔ config.IsGivenBy params := by
  constructor
  · intro read
    cases params with
    | absent => exact .standard (ofSettings_eq_ok_iff.mp read)
    | map settings => exact .settings (ofSettings_eq_ok_iff.mp read)
    | bool | int | float | text | list => cases read
  · rintro (settings | settings)
    · exact ofSettings_eq_ok_iff.mpr settings
    · exact ofSettings_eq_ok_iff.mpr settings

theorem standard_isTolerance : (Value.float 1e-8).IsTolerance 1e-8 where
  converts := .float _
  isFinite := (isFinite_iff _).mp (by decide +kernel)
  positive := doubleValue_pos_iff.mpr (by decide +kernel)

/-- The fields of a configuration that is accepted make settings that are. -/
theorem Describes.again {settings : List (String × Value)} {config : Config Float}
    (h : Describes settings config)
    : Describes config.toSettings config := by
  obtain ⟨limit, tolerance, asked⟩ := config
  refine ⟨.int _, ?_, ?_⟩
  · have gap := h.gap
    cases found : lookup? "tol" settings with
    | none =>
        rw [found] at gap
        obtain rfl : tolerance = 1e-8 := gap
        exact standard_isTolerance
    | some value =>
        rw [found] at gap
        exact Value.IsTolerance.again gap
  · have feasibility := h.feasibility
    cases found : lookup? "feastol" settings with
    | none =>
        rw [found] at feasibility
        obtain rfl : asked = none := feasibility
        exact .absent
    | some value =>
        rw [found] at feasibility
        obtain _ | tolerance := feasibility
        · exact .absent
        · exact .tolerance tolerance.again

-----------------------------------------------------------------------------------------
-- What is refused
-----------------------------------------------------------------------------------------

/-- The settings that have an influence, in the order in which they are looked at. -/
def keys : List String :=
  ["nmaxit", "tol", "feastol"]

/-- What a computation failed for. -/
def fault? {ε β : Type} : Except ε β → Option ε
  | .error fault => some fault
  | .ok _ => none

/-- What a setting is refused for if it is the only one. -/
def soleFault? (settings : List (String × Value)) (key : String) : Option Fault :=
  (lookup? key settings).bind fun value => fault? (ofSettings [(key, value)])

/-- What is refused, and what for: something else than settings for its kind, and settings for the
first of them that would be refused alone.
-/
inductive IsFault : Value → Fault → Prop
  | kind {params : Value} (given : params ≠ .absent) (other : ∀ settings, params ≠ .map settings)
    : IsFault params (.notMapping params.kind)
  | first {settings : List (String × Value)} {fault : Fault}
    (found : keys.findSome? (soleFault? settings) = some fault)
    : IsFault (.map settings) fault

theorem fault?_map {ε β γ : Type} (x : Except ε β) (f : β → γ)
    : fault? (x >>= fun b => pure (f b)) = fault? x := by
  cases x <;> rfl

theorem fault?_eq_some_iff {ε β : Type} {x : Except ε β} {fault : ε}
    : fault? x = some fault ↔ x = .error fault := by
  cases x <;> simp [fault?]

/-- A setting that is missing is not refused. -/
theorem soleFault?_eq {β : Type} (kept : β) {read : Value → Except Fault β} {key : String}
    (alone : ∀ value, fault? (ofSettings [(key, value)]) = fault? (read value))
    (settings : List (String × Value))
    : soleFault? settings key = fault? ((lookup? key settings).elim (pure kept) read) := by
  rw [soleFault?]
  cases lookup? key settings with
  | none => rfl
  | some value => exact alone value

theorem fault?_ofSettings (settings : List (String × Value))
    : fault? (ofSettings settings) = keys.findSome? (soleFault? settings) := by
  have limit (value : Value) : fault? (ofSettings [("nmaxit", value)]) = fault? (readLimit value) :=
    fault?_map _ fun n => { standard with iterationLimit := n }
  have gap (value : Value)
      : fault? (ofSettings [("tol", value)]) = fault? (readTolerance .gap value) :=
    fault?_map _ fun x => { standard with gapTolerance := x }
  have feasibility (value : Value)
      : fault? (ofSettings [("feastol", value)]) = fault? (readFeasibility value) :=
    fault?_map _ fun x => { standard with feasibilityTolerance := x }
  rw [ofSettings_eq, keys, List.findSome?_cons, List.findSome?_cons, List.findSome?_cons,
    soleFault?_eq standard.iterationLimit limit, soleFault?_eq standard.gapTolerance gap,
    soleFault?_eq standard.feasibilityTolerance feasibility]
  cases (lookup? "nmaxit" settings).elim (pure standard.iterationLimit) readLimit with
  | error fault => rfl
  | ok limit =>
      change fault? ((lookup? "tol" settings).elim _ _ >>= fun _ => _) = _
      cases (lookup? "tol" settings).elim (pure standard.gapTolerance) (readTolerance .gap) with
      | error fault => rfl
      | ok gap =>
          change fault? ((lookup? "feastol" settings).elim _ _ >>= fun _ => _) = _
          rw [fault?_map]
          cases (lookup? "feastol" settings).elim _ readFeasibility <;> rfl

theorem ofValue_eq_error_iff {params : Value} {fault : Fault}
    : ofValue params = .error fault ↔ IsFault params fault := by
  have first {settings : List (String × Value)}
      : ofSettings settings = .error fault
        ↔ keys.findSome? (soleFault? settings) = some fault := by
    rw [← fault?_ofSettings, fault?_eq_some_iff]
  constructor
  · intro refused
    cases params with
    | absent => cases refused
    | map settings => exact .first (first.mp refused)
    | bool | int | float | text | list =>
        cases refused
        exact .kind nofun nofun
  · rintro (⟨given, other⟩ | found)
    · cases params with
      | absent => exact absurd rfl given
      | map settings => exact absurd rfl (other settings)
      | bool | int | float | text | list => rfl
    · exact first.mpr found

-----------------------------------------------------------------------------------------
-- Validation
-----------------------------------------------------------------------------------------

/-- Validation of whatever a caller hands over. It makes the configuration that is described, or
refuses it for a fault of the configuration, the first that there is. Settings of other names have
no influence, and a configuration that is made can be given again.
-/
structure IsValidation (validate : Value → Except Fault (Config Float)) : Prop where
  accepts_iff : ∀ params config, validate params = .ok config ↔ config.IsGivenBy params
  refuses_iff : ∀ params fault, validate params = .error fault ↔ IsFault params fault
  kind : ∀ params fault, validate params = .error fault → fault.kind = .config
  others : ∀ settings settings', (∀ key ∈ keys, lookup? key settings = lookup? key settings') →
    validate (.map settings) = validate (.map settings')
  again : ∀ params config, validate params = .ok config →
    validate (.map config.toSettings) = .ok config

theorem ofSettings_congr {settings settings' : List (String × Value)}
    (same : ∀ key ∈ keys, lookup? key settings = lookup? key settings')
    : ofSettings settings = ofSettings settings' := by
  have limit : lookup? "nmaxit" settings = lookup? "nmaxit" settings' := same _ (by decide)
  have gap : lookup? Tolerance.gap.key settings = lookup? Tolerance.gap.key settings' :=
    same _ (by decide)
  have feasibility
      : lookup? Tolerance.feasibility.key settings
        = lookup? Tolerance.feasibility.key settings' :=
    same _ (by decide)
  rw [ofSettings_eq, ofSettings_eq, limit, gap, feasibility]

theorem ofValue_isValidation : IsValidation ofValue where
  accepts_iff _ _ := ofValue_eq_ok_iff
  refuses_iff _ _ := ofValue_eq_error_iff
  kind _ fault _ := fault.kind_eq
  others _ _ same := ofSettings_congr same
  again _ _ accepted := by
    rcases ofValue_eq_ok_iff.mp accepted with settings | settings
    · exact ofValue_eq_ok_iff.mpr (.settings settings.again)
    · exact ofValue_eq_ok_iff.mpr (.settings settings.again)

/-- The order in which settings are given does not matter for which one is reported. -/
example
    : (fault? (ofValue (.map [("tol", .int 0), ("nmaxit", .bool true)]))).map Fault.message
      = some "nmaxit must be an integer, got True" := by
  decide +kernel

end Config

end InteriorPoint
