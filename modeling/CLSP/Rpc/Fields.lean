import CLSP.Rpc.Json
import Mathlib.Data.List.Forall2

/-!
# The members of an object

Structures are written to objects one member after the other, and read back member by member. Each
reader depends on the member under its key alone (`find?`), and what was assigned under a key is
found there (`find?_ofFields`), so that a reader of an object that was written comes down to the
conversion of one value.
-/

namespace CLSP

namespace Json

/-! ## Readers -/

/-- `j.contains(key)`, with the member. -/
def find? (j : Json) (key : Bytes) : Option Json :=
  match j with
  | .object members => members.lookup key
  | _ => none

/-- What a test for null leaves of a member. -/
def notNull : Option Json → Option Json
  | some .null => none
  | value => value

/-- `get<bool>()` -/
def getBool : Json → Except JsonError Bool
  | .boolean b => .ok b
  | _ => .error .typeError

/-- What a range `for` passes over; a value that is neither an array nor an object is passed once,
unless it is null. -/
def elements : Json → List Json
  | .array elems => elems
  | .object members => members.map Prod.snd
  | .null => []
  | j => [j]

section Readers

variable {α : Type} (get : Json → Except JsonError α) (j : Json) (key : Bytes)

/-- `get<std::vector<T>>()` -/
def getList : Except JsonError (List α) := do
  (← j.getArray).mapM get

/-- `j.at(key).get<T>()` -/
def readAt : Except JsonError α := do
  get (← at_ j key)

/-- `if (j.contains(key) && !j[key].is_null()) x = j[key].get<T>();` -/
def readOpt : Except JsonError (Option α) :=
  match member? j key with
  | some value => some <$> get value
  | none => pure none

/-- `if (j.contains(key)) x = j[key].get<T>();` -/
def readContained : Except JsonError (Option α) :=
  match find? j key with
  | some value => some <$> get value
  | none => pure none

/-- `if (j.contains(key) && j[key].is_array()) x = j[key].get<std::vector<T>>();` -/
def readArray : Except JsonError (Option (List α)) :=
  match find? j key with
  | some (.array elems) => some <$> elems.mapM get
  | _ => pure none

/-- `if (j.contains(key) && j[key].is_object()) x = j[key].get<T>();` -/
def readObject : Except JsonError (Option α) :=
  match find? j key with
  | some (.object members) => some <$> get (.object members)
  | _ => pure none

end Readers

/-! ## Enumerations -/

@[simp] lemma getInt32_integer (n : Int32) : (Json.integer n.toInt).getInt32 = .ok n := by
  show Except.ok (Int32.ofInt n.toInt) = _
  rw [Int32.ofInt_toInt]

section Enum

variable {α : Type} (value : α → Int32) (mk : Int32 → α)

/-- `static_cast<int>(x)` as a JSON number. -/
def enumToJson (x : α) : Json :=
  .integer (value x).toInt

/-- `static_cast<T>(j.get<int>())`; every `int` is a value of an `enum class`. -/
def enumFromJson (j : Json) : Except JsonError α :=
  j.getInt32.map mk

lemma enumFromJson_enumToJson {x : α} (h : mk (value x) = x) :
    enumFromJson mk (enumToJson value x) = .ok x := by
  rw [enumFromJson, enumToJson, getInt32_integer]
  exact congrArg Except.ok h

end Enum

/-! ## Writers -/

/-- Assign a member that is present. -/
def assign (members : List (Bytes × Json)) (field : Bytes × Option Json) : List (Bytes × Json) :=
  match field.2 with
  | some value => setMember field.1 value members
  | none => members

/-- The object that is made by assigning the members that are present one after the other. -/
def ofFields (fields : List (Bytes × Option Json)) : Json :=
  .object (fields.foldl assign [])

/-! ## What is found -/

section Found

variable {key key' : Bytes} {value : Json} {members : List (Bytes × Json)}
  {fields : List (Bytes × Option Json)}

lemma lookup_cons_ne (h : key ≠ key') (value : Json) (members : List (Bytes × Json)) :
    ((key', value) :: members).lookup key = members.lookup key := by
  rw [List.lookup_cons, beq_false_of_ne h]

lemma lookup_setMember_self : (setMember key value members).lookup key = some value := by
  induction members with
  | nil => exact List.lookup_cons_self
  | cons m members ih =>
    rcases m with ⟨key', value'⟩
    unfold setMember
    split_ifs with heq hlt
    · exact List.lookup_cons_self
    · exact List.lookup_cons_self
    · rw [lookup_cons_ne heq]
      exact ih

lemma lookup_setMember_ne (h : key' ≠ key) :
    (setMember key value members).lookup key' = members.lookup key' := by
  induction members with
  | nil => exact lookup_cons_ne h value []
  | cons m members ih =>
    rcases m with ⟨key'', value''⟩
    unfold setMember
    split_ifs with heq hlt
    · subst heq
      rw [lookup_cons_ne h, lookup_cons_ne h]
    · exact lookup_cons_ne h value _
    · rw [List.lookup_cons, List.lookup_cons, ih]

/-- A key that is not assigned keeps its member. -/
lemma lookup_foldl_assign (h : key ∉ fields.map Prod.fst) :
    (fields.foldl assign members).lookup key = members.lookup key := by
  induction fields generalizing members with
  | nil => rfl
  | cons field fields ih =>
    rw [List.map_cons, List.mem_cons, not_or] at h
    rw [List.foldl_cons, ih h.2]
    unfold assign
    split
    · exact lookup_setMember_ne h.1
    · rfl

/-- What was assigned under a key is found there. -/
theorem find?_ofFields {i : ℕ} {value : Option Json} (hkeys : (fields.map Prod.fst).Nodup)
    (h : fields[i]? = some (key, value)) : (ofFields fields).find? key = value := by
  have hfold : ∀ members : List (Bytes × Json), members.lookup key = none →
      (fields.foldl assign members).lookup key = value := by
    induction fields generalizing i with
    | nil => exact absurd h (by simp)
    | cons field fields ih =>
      intro members hmembers
      rw [List.map_cons, List.nodup_cons] at hkeys
      rw [List.foldl_cons]
      rcases i with _ | i
      · -- the field itself, and then others
        have hfield : field = (key, value) := by simpa using h
        subst hfield
        rw [lookup_foldl_assign hkeys.1]
        cases value with
        | none => exact hmembers
        | some value => exact lookup_setMember_self
      · have h' : fields[i]? = some (key, value) := by simpa using h
        have hmem : key ∈ fields.map Prod.fst :=
          List.mem_map.mpr ⟨_, List.mem_of_getElem? h', rfl⟩
        have hne : key ≠ field.1 := fun heq => hkeys.1 (heq ▸ hmem)
        apply ih hkeys.2 h'
        unfold assign
        split
        · rw [lookup_setMember_ne hne]
          exact hmembers
        · exact hmembers
  exact hfold [] rfl

/-- What was assigned under given keys is determined by the object. -/
lemma fields_eq_of_ofFields_eq {fields' : List (Bytes × Option Json)}
    (hkeys : (fields.map Prod.fst).Nodup) (hsame : fields.map Prod.fst = fields'.map Prod.fst)
    (h : ofFields fields = ofFields fields') : fields = fields' := by
  have hlength : fields.length = fields'.length := by
    have hlengths := congrArg List.length hsame
    rwa [List.length_map, List.length_map] at hlengths
  refine List.ext_getElem hlength fun i hi hi' => ?_
  have hkey : fields[i].1 = fields'[i].1 := by
    have hkeyAt := congrArg (fun keys => keys[i]?) hsame
    simpa [hi, hi'] using hkeyAt
  have hfound : (ofFields fields).find? fields[i].1 = fields[i].2 :=
    find?_ofFields hkeys (List.getElem?_eq_getElem hi)
  have hfound' : (ofFields fields').find? fields'[i].1 = fields'[i].2 :=
    find?_ofFields (hsame ▸ hkeys) (List.getElem?_eq_getElem hi')
  rw [h, hkey, hfound'] at hfound
  exact Prod.ext hkey hfound.symm

end Found

/-! ## Readers by what is found -/

lemma notNull_eq_iff {value : Option Json} : notNull value = value ↔ value ≠ some .null := by
  cases value with
  | none => simp [notNull]
  | some j => cases j <;> simp [notNull]

section ReadersFind

variable {α : Type} {get : Json → Except JsonError α} {j : Json} {key : Bytes}

lemma at_of_find? {value : Json} (h : j.find? key = some value) : at_ j key = .ok value := by
  unfold find? at h
  cases j with
  | object members =>
    have hlookup : members.lookup key = some value := h
    simp only [at_, hlookup]
  | _ => exact absurd h (by simp)

lemma member?_eq_find? (j : Json) (key : Bytes) : member? j key = notNull (j.find? key) := by
  cases j <;> rfl

lemma readAt_of_find? {value : Json} (h : j.find? key = some value) :
    readAt get j key = get value := by
  unfold readAt
  rw [at_of_find? h]
  rfl

lemma readOpt_of_find?_none (h : j.find? key = none) : readOpt get j key = .ok none := by
  unfold readOpt
  rw [member?_eq_find?, h]
  rfl

lemma readOpt_of_find?_null (h : j.find? key = some .null) : readOpt get j key = .ok none := by
  unfold readOpt
  rw [member?_eq_find?, h]
  rfl

lemma readOpt_of_find? {value : Json} (h : j.find? key = some value) (hnull : value ≠ .null) :
    readOpt get j key = some <$> get value := by
  unfold readOpt
  rw [member?_eq_find?, h]
  cases value with
  | null => exact absurd rfl hnull
  | _ => rfl

lemma readContained_of_find? {value : Json} (h : j.find? key = some value) :
    readContained get j key = some <$> get value := by
  unfold readContained
  rw [h]

lemma readObject_of_find? {members : List (Bytes × Json)}
    (h : j.find? key = some (.object members)) :
    readObject get j key = some <$> get (.object members) := by
  unfold readObject
  rw [h]

/-! A reader depends on nothing else. -/

section Congr

variable {j' : Json}

lemma readOpt_congr (h : j'.find? key = j.find? key) :
    readOpt get j' key = readOpt get j key := by
  unfold readOpt
  rw [member?_eq_find?, member?_eq_find?, h]

lemma readContained_congr (h : j'.find? key = j.find? key) :
    readContained get j' key = readContained get j key := by
  unfold readContained
  rw [h]

lemma readObject_congr (h : j'.find? key = j.find? key) :
    readObject get j' key = readObject get j key := by
  unfold readObject
  rw [h]

end Congr

end ReadersFind

/-! ## What was read -/

section Inversion

variable {α β : Type} {get : Json → Except JsonError α} {j : Json} {key : Bytes}

lemma map_eq_ok {f : α → β} {x : Except JsonError α} {b : β} (h : f <$> x = .ok b) :
    ∃ a, x = .ok a := by
  cases x with
  | error => cases h
  | ok a => exact ⟨a, rfl⟩

lemma at_eq_ok {value : Json} : at_ j key = .ok value ↔ j.find? key = some value := by
  constructor
  · intro h
    cases j with
    | object members =>
      rcases hlookup : members.lookup key with _ | value'
      · rw [at_, hlookup] at h
        cases h
      · rw [at_, hlookup] at h
        rw [← Except.ok.inj h]
        exact hlookup
    | _ => cases h
  · exact at_of_find?

lemma readAt_eq_ok {x : α} :
    readAt get j key = .ok x ↔ ∃ value, j.find? key = some value ∧ get value = .ok x := by
  unfold readAt
  rw [bind_eq_ok]
  simp only [at_eq_ok]

lemma readOpt_eq_ok {x : Option α} (h : readOpt get j key = .ok x) :
    member? j key = none ∧ x = none ∨
      ∃ value a, member? j key = some value ∧ get value = .ok a ∧ x = some a := by
  unfold readOpt at h
  split at h
  · next value hmember =>
    rcases hget : get value with e | a
    · rw [hget] at h
      cases h
    · rw [hget] at h
      exact Or.inr ⟨value, a, hmember, hget, (Except.ok.inj h).symm⟩
  · next hmember => exact Or.inl ⟨hmember, (Except.ok.inj h).symm⟩

lemma mapM_eq_ok {elems : List Json} {xs : List α} (h : elems.mapM get = .ok xs) :
    List.Forall₂ (fun elem x => get elem = .ok x) elems xs := by
  induction elems generalizing xs with
  | nil =>
    rw [← Except.ok.inj h]
    exact .nil
  | cons elem elems ih =>
    rw [List.mapM_cons, bind_eq_ok] at h
    rcases h with ⟨x, hx, h⟩
    rcases bind_eq_ok.mp h with ⟨xs', hxs', h⟩
    rw [← Except.ok.inj h]
    exact .cons hx (ih hxs')

lemma getList_eq_ok {xs : List α} (h : getList get j = .ok xs) :
    ∃ elems, j = .array elems ∧ List.Forall₂ (fun elem x => get elem = .ok x) elems xs := by
  rcases bind_eq_ok.mp h with ⟨elems, harray, h⟩
  cases j with
  | array elems' =>
    obtain rfl := Except.ok.inj harray
    exact ⟨elems', rfl, mapM_eq_ok h⟩
  | _ => cases harray

end Inversion

/-! ## Round trips of members -/

section RoundTrip

variable {α β : Type} {put : α → Json} {fields : List (Bytes × Option Json)} {key : Bytes} {i : ℕ}

lemma getList_array {get : Json → Except JsonError β} {f : α → β}
    (h : ∀ x, get (put x) = .ok (f x)) (xs : List α) :
    getList get (.array (xs.map put)) = .ok (xs.map f) := by
  show (xs.map put).mapM get = _
  induction xs with
  | nil => rfl
  | cons x xs ih =>
    rw [List.map_cons, List.mapM_cons, h, ih]
    rfl

variable {get : Json → Except JsonError α}

lemma getList_array_self (h : ∀ x, get (put x) = .ok x) (xs : List α) :
    getList get (.array (xs.map put)) = .ok xs := by
  have hlist : getList get (.array (xs.map put)) = .ok (xs.map id) := getList_array h xs
  rw [hlist, List.map_id]

/-- A member that is always there. -/
lemma readAt_ofFields (hkeys : (fields.map Prod.fst).Nodup) {value : Json} {x : α}
    (hfield : fields[i]? = some (key, some value)) (h : get value = .ok x) :
    readAt get (ofFields fields) key = .ok x := by
  rw [readAt_of_find? (find?_ofFields hkeys hfield), h]

/-- An optional member whose values are not null. -/
lemma readOpt_ofFields (hkeys : (fields.map Prod.fst).Nodup) {x : Option α}
    (hfield : fields[i]? = some (key, x.map put)) (hnull : ∀ x, put x ≠ .null)
    (h : ∀ x, get (put x) = .ok x) : readOpt get (ofFields fields) key = .ok x := by
  have hfind := find?_ofFields hkeys hfield
  cases x with
  | none => exact readOpt_of_find?_none hfind
  | some x =>
    rw [readOpt_of_find? hfind (hnull x), h]
    rfl

/-- An optional member of any kind, `null` included. -/
lemma member?_ofFields (hkeys : (fields.map Prod.fst).Nodup) {value : Option Json}
    (hfield : fields[i]? = some (key, value)) : member? (ofFields fields) key = notNull value := by
  rw [member?_eq_find?, find?_ofFields hkeys hfield]

/-- An optional member that is an array. -/
lemma readArray_ofFields (hkeys : (fields.map Prod.fst).Nodup) {xs : Option (List α)}
    (hfield : fields[i]? = some (key, xs.map fun xs => .array (xs.map put)))
    (h : ∀ x, get (put x) = .ok x) : readArray get (ofFields fields) key = .ok xs := by
  have hfind := find?_ofFields hkeys hfield
  unfold readArray
  cases xs with
  | none =>
    rw [hfind]
    rfl
  | some xs =>
    have hlist : (xs.map put).mapM get = .ok xs := getList_array_self h xs
    rw [hfind]
    simp only [Option.map_some, hlist]
    rfl

end RoundTrip

end Json

end CLSP
