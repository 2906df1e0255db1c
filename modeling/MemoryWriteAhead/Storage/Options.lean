/-
  MemoryWriteAhead.Storage.Options
  ────────────────────────────────
  **THE CAPACITIES THAT A RUNTIME ACCEPTS.**

  `memoryWriteAheadSharedRuntime.ts`: `assertPositiveInteger`,
  `assertPositiveCapacityBytes` and `resolveMemoryWriteAheadRuntimeOptions`, and
  the capacities that `createMemoryWriteAheadSharedRuntime` hands to
  `createSharedFile` for the database and for the write-ahead files.

    • `Accepted.of_resolve` — what every accepted option set satisfies,
    • `ResolvedRuntimeOptions.capacities` — the capacities of a file, with the
      proofs that its layout needs.
-/
import MemoryWriteAhead.Storage.Layout

namespace MemoryWriteAhead.Storage

/-! ## §1. The options. -/

/-- A number given for an option: one that `Number.isSafeInteger` accepts, or any other
with the text it is shown as. -/
inductive OptionNumber where
  | safeInteger (n : Int)
  | other (text : String)
  deriving DecidableEq, Repr

/-- How a number is shown in a message. -/
def OptionNumber.text : OptionNumber → String
  | .safeInteger n => toString n
  | .other text => text

/-- `MemoryWriteAheadRuntimeOptions`; `none`: not given. -/
structure RuntimeOptions where
  allowFixedCapacityFallback : Option Bool
  initialDatabaseCapacityBytes : Option OptionNumber
  maxDatabaseCapacityBytes : Option OptionNumber
  initialWriteAheadCapacityBytes : Option OptionNumber
  maxWriteAheadCapacityBytes : Option OptionNumber
  fileLockStaleMs : Option OptionNumber
  deriving DecidableEq, Repr

/-- `MemoryWriteAheadResolvedRuntimeOptions`. -/
structure ResolvedRuntimeOptions where
  allowFixedCapacityFallback : Bool
  initialDatabaseCapacityBytes : Nat
  maxDatabaseCapacityBytes : Nat
  initialWriteAheadCapacityBytes : Nat
  maxWriteAheadCapacityBytes : Nat
  fileLockStaleMs : Nat
  deriving DecidableEq, Repr

/-- What a check of the options throws. -/
inductive OptionError where
  | notPositiveInteger (label : String) (value : OptionNumber)
  | capacityTooLarge (label : String)
  | initialExceedsMax (initialLabel maxLabel : String)
  deriving DecidableEq, Repr

/-- The text of an error; it names the option that is wrong. -/
def OptionError.message : OptionError → String
  | .notPositiveInteger label value =>
      label ++ " must be a positive integer; received " ++ value.text
  | .capacityTooLarge label =>
      label ++ " cannot exceed " ++ toString maxInt32AtomicCounter ++ " bytes"
  | .initialExceedsMax initialLabel maxLabel => initialLabel ++ " cannot exceed " ++ maxLabel

/-- The units and the defaults of the source. -/
def kib : Nat := 1024
def mib : Nat := 1024 * kib
def defaultInitialDatabaseCapacityBytes : Nat := 16 * mib
def defaultMaxDatabaseCapacityBytes : Nat := 1024 * mib
def defaultInitialWriteAheadCapacityBytes : Nat := 8 * mib
def defaultMaxWriteAheadCapacityBytes : Nat := 512 * mib
def defaultFileLockStaleMs : Nat := 30000

/-- `value ?? default` -/
def OptionNumber.orDefault (value : Option OptionNumber) (default : Nat) : OptionNumber :=
  value.getD (.safeInteger default)

/-- `assertPositiveInteger`; the number itself is the result. -/
def assertPositiveInteger (value : OptionNumber) (label : String) : Except OptionError Nat :=
  match value with
  | .safeInteger n =>
      if n ≤ 0 then .error (.notPositiveInteger label value) else .ok n.toNat
  | .other _ => .error (.notPositiveInteger label value)

/-- `assertPositiveCapacityBytes`: a byte count has to fit into an `Int32` word. -/
def assertPositiveCapacityBytes (value : OptionNumber) (label : String) :
    Except OptionError Nat := do
  let capacityBytes ← assertPositiveInteger value label
  if capacityBytes > maxInt32AtomicCounter then throw (.capacityTooLarge label)
  else pure capacityBytes

/-- The checks are made in the order of the source, so the first wrong option is the one
that is named. -/
def resolveMemoryWriteAheadRuntimeOptions (options : RuntimeOptions) :
    Except OptionError ResolvedRuntimeOptions := do
  let initialDatabaseCapacityBytes ← assertPositiveCapacityBytes
    (.orDefault options.initialDatabaseCapacityBytes defaultInitialDatabaseCapacityBytes)
    "initialDatabaseCapacityBytes"
  let maxDatabaseCapacityBytes ← assertPositiveCapacityBytes
    (.orDefault options.maxDatabaseCapacityBytes defaultMaxDatabaseCapacityBytes)
    "maxDatabaseCapacityBytes"
  let initialWriteAheadCapacityBytes ← assertPositiveCapacityBytes
    (.orDefault options.initialWriteAheadCapacityBytes defaultInitialWriteAheadCapacityBytes)
    "initialWriteAheadCapacityBytes"
  let maxWriteAheadCapacityBytes ← assertPositiveCapacityBytes
    (.orDefault options.maxWriteAheadCapacityBytes defaultMaxWriteAheadCapacityBytes)
    "maxWriteAheadCapacityBytes"
  let fileLockStaleMs ← assertPositiveInteger
    (.orDefault options.fileLockStaleMs defaultFileLockStaleMs) "fileLockStaleMs"
  if initialDatabaseCapacityBytes > maxDatabaseCapacityBytes then
    throw (.initialExceedsMax "initialDatabaseCapacityBytes" "maxDatabaseCapacityBytes")
  else if initialWriteAheadCapacityBytes > maxWriteAheadCapacityBytes then
    throw (.initialExceedsMax "initialWriteAheadCapacityBytes" "maxWriteAheadCapacityBytes")
  else
    pure {
      allowFixedCapacityFallback := options.allowFixedCapacityFallback.getD false
      initialDatabaseCapacityBytes
      maxDatabaseCapacityBytes
      initialWriteAheadCapacityBytes
      maxWriteAheadCapacityBytes
      fileLockStaleMs }

/-- The two kinds of files of a runtime. -/
inductive FileKind where
  | database
  | writeAhead
  deriving DecidableEq, Repr

namespace ResolvedRuntimeOptions

variable (resolved : ResolvedRuntimeOptions)

/-- With which capacity a file of the kind is created. -/
def initialCapacityBytes : FileKind → Nat
  | .database => resolved.initialDatabaseCapacityBytes
  | .writeAhead => resolved.initialWriteAheadCapacityBytes

/-- How far it may grow. -/
def maxCapacityBytes : FileKind → Nat
  | .database => resolved.maxDatabaseCapacityBytes
  | .writeAhead => resolved.maxWriteAheadCapacityBytes

end ResolvedRuntimeOptions

/-! ## §2. What is accepted. -/

/-- What the first check lets pass. -/
theorem assertPositiveInteger_ok {value : OptionNumber} {label : String} {n : Nat}
    (h : assertPositiveInteger value label = .ok n) : value = .safeInteger n ∧ 0 < n := by
  unfold assertPositiveInteger at h
  split at h
  next m =>
    split at h
    next => cases h
    next hpos =>
      obtain rfl := Except.ok.inj h
      exact ⟨by rw [Int.toNat_of_nonneg (by omega)], by omega⟩
  next => cases h

/-- What the second one lets pass. -/
theorem assertPositiveCapacityBytes_ok {value : OptionNumber} {label : String} {n : Nat}
    (h : assertPositiveCapacityBytes value label = .ok n) :
    value = .safeInteger n ∧ 0 < n ∧ n ≤ maxInt32AtomicCounter := by
  unfold assertPositiveCapacityBytes at h
  cases hpositive : assertPositiveInteger value label with
  | error e =>
      rw [hpositive] at h
      cases h
  | ok m =>
      rw [hpositive] at h
      obtain ⟨hvalue, hpos⟩ := assertPositiveInteger_ok hpositive
      simp only [bind, Except.bind] at h
      split at h
      next => cases h
      next hle =>
        cases h
        exact ⟨hvalue, hpos, by omega⟩

/-- What an accepted option set satisfies. -/
structure Accepted (resolved : ResolvedRuntimeOptions) : Prop where
  initial_pos : ∀ kind, 0 < resolved.initialCapacityBytes kind
  initial_le : ∀ kind, resolved.initialCapacityBytes kind ≤ resolved.maxCapacityBytes kind
  max_le : ∀ kind, resolved.maxCapacityBytes kind ≤ maxInt32AtomicCounter
  stale_pos : 0 < resolved.fileLockStaleMs

/-- The computation that an `Except` block has gone through. -/
theorem except_bind_ok {ε α β : Type} {x : Except ε α} {f : α → Except ε β} {b : β}
    (h : (x >>= f) = .ok b) : ∃ a, x = .ok a ∧ f a = .ok b := by
  cases x with
  | error e => cases h
  | ok a => exact ⟨a, rfl, h⟩

/-- **What is resolved is accepted**: the checks imply the bounds that the files rely on. -/
theorem Accepted.of_resolve {options : RuntimeOptions} {resolved : ResolvedRuntimeOptions}
    (h : resolveMemoryWriteAheadRuntimeOptions options = .ok resolved) : Accepted resolved := by
  unfold resolveMemoryWriteAheadRuntimeOptions at h
  obtain ⟨initialDatabase, hinitialDatabase, h⟩ := except_bind_ok h
  obtain ⟨maxDatabase, hmaxDatabase, h⟩ := except_bind_ok h
  obtain ⟨initialWriteAhead, hinitialWriteAhead, h⟩ := except_bind_ok h
  obtain ⟨maxWriteAhead, hmaxWriteAhead, h⟩ := except_bind_ok h
  obtain ⟨staleMs, hstaleMs, h⟩ := except_bind_ok h
  obtain ⟨-, hinitialDatabasePos, -⟩ := assertPositiveCapacityBytes_ok hinitialDatabase
  obtain ⟨-, -, hmaxDatabaseLe⟩ := assertPositiveCapacityBytes_ok hmaxDatabase
  obtain ⟨-, hinitialWriteAheadPos, -⟩ := assertPositiveCapacityBytes_ok hinitialWriteAhead
  obtain ⟨-, -, hmaxWriteAheadLe⟩ := assertPositiveCapacityBytes_ok hmaxWriteAhead
  obtain ⟨-, hstalePos⟩ := assertPositiveInteger_ok hstaleMs
  split at h
  next => cases h
  next hdatabase =>
    split at h
    next => cases h
    next hwriteAhead =>
      cases h
      refine ⟨fun kind => ?_, fun kind => ?_, fun kind => ?_, hstalePos⟩
      · cases kind with
        | database => exact hinitialDatabasePos
        | writeAhead => exact hinitialWriteAheadPos
      · cases kind with
        | database => exact Nat.le_of_not_lt hdatabase
        | writeAhead => exact Nat.le_of_not_lt hwriteAhead
      · cases kind with
        | database => exact hmaxDatabaseLe
        | writeAhead => exact hmaxWriteAheadLe

/-- The capacities of a file of an accepted runtime. -/
def ResolvedRuntimeOptions.capacities (resolved : ResolvedRuntimeOptions)
    (h : Accepted resolved) (kind : FileKind) : Capacities where
  initialCapacityBytes := resolved.initialCapacityBytes kind
  maxCapacityBytes := resolved.maxCapacityBytes kind
  initial_pos := h.initial_pos kind
  initial_le := h.initial_le kind
  max_le := h.max_le kind

/-- The defaults pass their own checks. -/
theorem defaults_accepted :
    resolveMemoryWriteAheadRuntimeOptions ⟨none, none, none, none, none, none⟩
      = .ok ⟨false, defaultInitialDatabaseCapacityBytes, defaultMaxDatabaseCapacityBytes,
          defaultInitialWriteAheadCapacityBytes, defaultMaxWriteAheadCapacityBytes,
          defaultFileLockStaleMs⟩ := by
  decide

end MemoryWriteAhead.Storage
