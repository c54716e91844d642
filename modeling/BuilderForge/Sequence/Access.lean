/-!
# Access to the elements of a sequence

An element is read by its index. Reading beyond the end is a fault that
names the length and the index.
-/

namespace BuilderForge

/-- An attempt to read beyond the end of a sequence. -/
structure IndexFault where
  /-- The length of the sequence. -/
  length : Nat
  /-- The index that was asked for. -/
  index : Nat
  deriving DecidableEq

/-- The fault in words. -/
def IndexFault.message (fault : IndexFault) : String :=
  "index out of bounds: the len is " ++ toString fault.length ++
    " but the index is " ++ toString fault.index

variable {α : Type}

/-- The element at `index`, or the fault of a sequence that is too short. -/
def elementAt (items : List α) (index : Nat) : Except IndexFault α :=
  match items[index]? with
  | some a => .ok a
  | none => .error ⟨items.length, index⟩

/-- A listing of numbers in brackets, parted by commas. -/
def bracketed (items : List UInt64) : String :=
  "[" ++ ", ".intercalate (items.map fun x => toString x.toNat) ++ "]"

/-- Reading fails exactly from the length on. -/
theorem elementAt_eq_error_iff {items : List α} {index : Nat} {fault : IndexFault} :
    elementAt items index = .error fault ↔
      items.length ≤ index ∧ fault = ⟨items.length, index⟩ := by
  unfold elementAt
  by_cases h : index < items.length
  · simp [List.getElem?_eq_getElem h, Nat.not_le.2 h]
  · rw [List.getElem?_eq_none (Nat.not_lt.1 h)]
    simp [Nat.not_lt.1 h, eq_comm]

end BuilderForge
