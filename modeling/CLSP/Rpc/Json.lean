import CLSP.Bytes
import Mathlib.Data.Int.Notation
import Mathlib.Data.Rat.Init

/-!
# JSON values

The values of `nlohmann::json` and the accesses the sources make to them, with the exceptions
they throw. The parser and the printer of the library are not part of the sources: `Nlohmann`
stands for them, and `Nlohmann.Documented` is what is relied on.
-/

namespace CLSP

/-- A `nlohmann::json`. The two integer kinds are one here, a float is the rational it holds, and
an object lists its members by key. -/
inductive Json
  | null
  | boolean (b : Bool)
  | integer (n : ℤ)
  | float (q : ℚ)
  | string (s : Bytes)
  | array (elems : List Json)
  | object (members : List (Bytes × Json))
deriving Inhabited

/-- The exceptions of the accessors: `type_error` and `out_of_range`. -/
inductive JsonError
  | typeError
  | outOfRange
deriving DecidableEq, Repr

namespace Json

/-! ## Objects -/

/-- Assign a member of an object. The members stay in the order of their keys. -/
def setMember (key : Bytes) (value : Json) : List (Bytes × Json) → List (Bytes × Json)
  | [] => [(key, value)]
  | (key', value') :: members =>
    if key = key' then (key, value) :: members
    else if key < key' then (key, value) :: (key', value') :: members
    else (key', value') :: setMember key value members

/-- An object with the given members. -/
def ofMembers (members : List (Bytes × Json)) : Json :=
  .object (members.foldl (fun ms m => setMember m.1 m.2 ms) [])

/-- `j.at(key)` -/
def at_ (j : Json) (key : Bytes) : Except JsonError Json :=
  match j with
  | .object members =>
    match members.lookup key with
    | some value => .ok value
    | none => .error .outOfRange
  | _ => .error .typeError

/-- `j.contains(key) && !j[key].is_null()`, with the member. -/
def member? (j : Json) (key : Bytes) : Option Json :=
  match j with
  | .object members =>
    match members.lookup key with
    | some .null => none
    | value => value
  | _ => none

/-! ## Conversions -/

/-- `get<std::string>()` -/
def getString : Json → Except JsonError Bytes
  | .string s => .ok s
  | _ => .error .typeError

/-- The number an arithmetic conversion casts: booleans count, fractions are cut off. -/
def getNumber : Json → Except JsonError ℤ
  | .integer n => .ok n
  | .float q => .ok (q.num.tdiv q.den)
  | .boolean b => .ok (if b then 1 else 0)
  | _ => .error .typeError

/-- `get<int32_t>()`, a cast without a range check. -/
def getInt32 (j : Json) : Except JsonError Int32 :=
  j.getNumber.map Int32.ofInt

/-- `get<uint32_t>()`, a cast without a range check. -/
def getUInt32 (j : Json) : Except JsonError UInt32 :=
  j.getNumber.map UInt32.ofInt

/-- The elements of `get<std::vector<T>>()`. -/
def getArray : Json → Except JsonError (List Json)
  | .array elems => .ok elems
  | _ => .error .typeError

/-- What comes after a conversion is done with the value it has given. -/
lemma bind_eq_ok {ε α β : Type} {x : Except ε α} {f : α → Except ε β} {b : β} :
    x >>= f = .ok b ↔ ∃ a, x = .ok a ∧ f a = .ok b := by
  cases x with
  | error e =>
    constructor
    · nofun
    · rintro ⟨a, ha, -⟩
      cases ha
  | ok a =>
    constructor
    · exact fun h => ⟨a, rfl, h⟩
    · rintro ⟨a', ha, h⟩
      rw [Except.ok.inj ha]
      exact h

/-! ## Valid strings -/

mutual

/-- Every string of the value, keys included, is valid UTF-8. -/
def ValidUtf8 : Json → Prop
  | .string s => Utf8.Valid s
  | .array elems => AllValidUtf8 elems
  | .object members => MembersValidUtf8 members
  | _ => True

def AllValidUtf8 : List Json → Prop
  | [] => True
  | j :: elems => j.ValidUtf8 ∧ AllValidUtf8 elems

def MembersValidUtf8 : List (Bytes × Json) → Prop
  | [] => True
  | (key, j) :: members => Utf8.Valid key ∧ j.ValidUtf8 ∧ MembersValidUtf8 members

end

mutual

def decValidUtf8 : (j : Json) → Decidable j.ValidUtf8
  | .null => .isTrue trivial
  | .boolean _ => .isTrue trivial
  | .integer _ => .isTrue trivial
  | .float _ => .isTrue trivial
  | .string s => inferInstanceAs (Decidable (Utf8.Valid s))
  | .array elems => decAllValidUtf8 elems
  | .object members => decMembersValidUtf8 members

def decAllValidUtf8 : (elems : List Json) → Decidable (AllValidUtf8 elems)
  | [] => .isTrue trivial
  | j :: elems =>
    have := decValidUtf8 j
    have := decAllValidUtf8 elems
    inferInstanceAs (Decidable (j.ValidUtf8 ∧ AllValidUtf8 elems))

def decMembersValidUtf8 : (members : List (Bytes × Json)) → Decidable (MembersValidUtf8 members)
  | [] => .isTrue trivial
  | (key, j) :: members =>
    have := decValidUtf8 j
    have := decMembersValidUtf8 members
    inferInstanceAs (Decidable (Utf8.Valid key ∧ j.ValidUtf8 ∧ MembersValidUtf8 members))

end

instance (j : Json) : Decidable j.ValidUtf8 := j.decValidUtf8

lemma membersValidUtf8_setMember {key : Bytes} {value : Json} {members : List (Bytes × Json)}
    (hkey : Utf8.Valid key) (hvalue : value.ValidUtf8) (h : MembersValidUtf8 members) :
    MembersValidUtf8 (setMember key value members) := by
  induction members with
  | nil => exact ⟨hkey, hvalue, trivial⟩
  | cons m members ih =>
    unfold setMember
    rcases h with ⟨hk, hv, hrest⟩
    split_ifs
    · exact ⟨hkey, hvalue, hrest⟩
    · exact ⟨hkey, hvalue, hk, hv, hrest⟩
    · exact ⟨hk, hv, ih hrest⟩

lemma validUtf8_ofMembers {members : List (Bytes × Json)} (h : MembersValidUtf8 members) :
    (ofMembers members).ValidUtf8 := by
  have hfold : ∀ acc, MembersValidUtf8 acc →
      MembersValidUtf8 (members.foldl (fun ms m => setMember m.1 m.2 ms) acc) := by
    induction members with
    | nil => exact fun acc hacc => hacc
    | cons m members ih =>
      intro acc hacc
      exact ih h.2.2 _ (membersValidUtf8_setMember h.1 h.2.1 hacc)
  exact hfold [] trivial

lemma MembersValidUtf8.lookup {members : List (Bytes × Json)} (h : MembersValidUtf8 members)
    {key : Bytes} {j : Json} (hlookup : members.lookup key = some j) : j.ValidUtf8 := by
  induction members with
  | nil => exact absurd hlookup (by simp)
  | cons m members ih =>
    rcases h with ⟨-, hj, hrest⟩
    rw [List.lookup_cons] at hlookup
    split at hlookup
    · rw [← Option.some.inj hlookup]
      exact hj
    · exact ih hrest hlookup

end Json

/-! ## The library -/

/-- What `json::parse` throws on text: a syntax error, or a number out of the range of `double`. -/
inductive ParseException
  | parseError
  | outOfRange
deriving DecidableEq, Repr

/-- `json::parse` and `json::dump`. On a string that is not valid UTF-8 `dump` throws a
`type_error`, here its `what()`. -/
structure Nlohmann where
  parse : Bytes → Except ParseException Json
  dump : Json → Except Bytes Bytes

/-- Parsed values hold valid UTF-8 only, valid UTF-8 can be printed, and the text of the exception
is valid itself. -/
structure Nlohmann.Documented (nl : Nlohmann) : Prop where
  parse_valid : ∀ raw j, nl.parse raw = .ok j → j.ValidUtf8
  dump_valid : ∀ j, j.ValidUtf8 → ∃ text, nl.dump j = .ok text
  what_valid : ∀ j what, nl.dump j = .error what → Utf8.Valid what

/-- Strings that are not valid UTF-8 cannot be printed. -/
def Nlohmann.Strict (nl : Nlohmann) : Prop :=
  ∀ j, ¬ j.ValidUtf8 → ∃ what, nl.dump j = .error what

end CLSP
