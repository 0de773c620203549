import WireMesh.Lib.Checked
import WireMesh.Lib.Keyed

-- Values in the form of JSON, and how records are read from them: fields by their names, in any order and
-- among others, or by their places.
inductive Json
  | null
  | bool (b : Bool)
  | nat (n : Nat)
  | number -- one that is negative or has a fraction
  | str (s : String)
  | arr (elems : List Json)
  | obj (fields : List (String × Json))

namespace Json

inductive Error
  | invalidType
  | outOfRange
  | invalidLength
  | missingField (name : String)
  | duplicateField (name : String)
  | malformed
deriving DecidableEq

abbrev Reader (α : Type) := Json → Except Error α

-- The text of a value, which can be read again.
class Codec (Text : Type) where
  write : Json → Text
  parse : Text → Except Error Json
  parse_write : ∀ j, parse (write j) = .ok j

section Read

def readUInt (bits : Nat) : Reader (BitVec bits)
  | nat n => if n < 2 ^ bits then .ok (BitVec.ofNat bits n) else .error .outOfRange
  | _     => .error .invalidType

def readString : Reader String
  | str s => .ok s
  | _     => .error .invalidType

def readOption (read : Reader α) : Reader (Option α)
  | null => .ok none
  | j    => some <$> read j

def readVec (read : Reader α) : Reader (List α)
  | arr elems => elems.mapM read
  | _         => .error .invalidType

-- A field may be left out, but not be given twice.
def field (fields : List (String × Json)) (name : String) : Except Error (Option Json) :=
  match fields.filter (·.1 = name) with
  | []       => .ok none
  | [(_, j)] => .ok (some j)
  | _        => .error (.duplicateField name)

-- The fields of a record in their order. By their places, the last ones may be left out.
def readFields (names : List String) : Reader (List (Option Json))
  | obj fields => names.mapM (field fields)
  | arr elems  =>
    if elems.length ≤ names.length then
      .ok (elems.map some ++ List.replicate (names.length - elems.length) none)
    else .error .invalidLength
  | _ => .error .invalidType

def required (name : String) (read : Reader α) : Option Json → Except Error α
  | some j => read j
  | none   => .error (.missingField name)

def orDefault (default : α) (read : Reader α) : Option Json → Except Error α
  | some j => read j
  | none   => .ok default

end Read

section Write

def writeUInt (n : BitVec bits) : Json :=
  nat n.toNat

def writeOption (write : α → Json) : Option α → Json
  | none   => null
  | some a => write a

def writeVec (write : α → Json) (as : List α) : Json :=
  arr (as.map write)

end Write

section Laws

variable {α : Type} {read : Reader α} {write : α → Json}

@[simp]
theorem readUInt_writeUInt (n : BitVec bits) : readUInt bits (writeUInt n) = .ok n := by
  rw [writeUInt, readUInt, if_pos n.isLt, BitVec.ofNat_toNat, BitVec.setWidth_eq]

@[simp]
theorem readString_str (s : String) : readString (str s) = .ok s :=
  rfl

@[simp]
theorem readOption_writeOption (o : Option String) :
    readOption readString (writeOption str o) = .ok o := by
  cases o <;> rfl

theorem readVec_writeVec_map {f : α → β} {read : Reader β} (h : ∀ a, read (write a) = .ok (f a)) :
    readVec read (writeVec write as) = .ok (as.map f) := by
  rw [writeVec, readVec]
  induction as
  case nil => rfl
  case cons a as ih =>
    rw [List.map_cons, List.mapM_cons, h a, ih]
    rfl

theorem readVec_writeVec (h : ∀ a, read (write a) = .ok a) :
    readVec read (writeVec write as) = .ok as := by
  rw [readVec_writeVec_map h, List.map_id']

theorem exists_of_mem_readVec (h : readVec read j = .ok as) (ha : a ∈ as) :
    ∃ j, read j = .ok a := by
  cases j
  case arr elems =>
    have ⟨j, _, hj⟩ := Checked.mapM_mem h ha
    exact ⟨j, hj⟩
  all_goals cases h

theorem required_ok (h : required name read o = .ok a) : ∃ j, read j = .ok a := by
  cases o
  case none   => cases h
  case some j => exact ⟨j, h⟩

theorem field_of_mem (hn : (fields.map Prod.fst).Nodup) (hm : (name, j) ∈ fields) :
    field fields name = .ok (some j) := by
  have hl := Keyed.lookup_of_mem hn hm
  rw [field, Keyed.filter_eq_lookup hn, hl]
  rfl

-- A record that is written with all its fields is read with them.
theorem readFields_obj (hn : (fields.map Prod.fst).Nodup) :
    readFields (fields.map Prod.fst) (obj fields) = .ok (fields.map (some ·.2)) := by
  refine Checked.mapM_ok.mpr ?_
  rw [List.forall₂_map_left_iff, List.forall₂_map_right_iff]
  exact List.forall₂_same.mpr fun _ hm => field_of_mem hn hm

end Laws
end Json
