import CLSP.Rpc.Fields
import Mathlib.Data.Finset.Insert

/-!
# The params of `initialize`

`from_json` of `InitializeParams` (`protocol/Lifecycle.hpp`) and of `ClientCapabilities`
(`protocol/Capabilities.hpp`). A member that is added with the value null is taken for absent by the
readers that test for null or for an object; three readers test for its presence only
(`fromJson_addNull_iff`).
-/

namespace CLSP

open Json (find? getString getInt32 getList readAt readOpt readContained readObject member?)

/-! ## The structures -/

/-- `InitializeParams::ClientInfo` -/
structure ClientInfo where
  name : Bytes
  version : Option Bytes
deriving DecidableEq, Repr

/-- `ClientCapabilities::General` -/
structure General where
  positionEncodings : Option (List Bytes)
deriving DecidableEq, Repr

structure ClientCapabilities where
  general : Option General
deriving DecidableEq, Repr

structure InitializeParams where
  processId : Option Int32
  clientInfo : Option ClientInfo
  rootPath : Option Bytes
  rootUri : Option Bytes
  initializationOptions : Option Json
  capabilities : ClientCapabilities
  trace : Option Bytes

/-! ## `from_json` -/

def ClientInfo.fromJson (j : Json) : Except JsonError ClientInfo := do
  let name ← readAt getString j (str "name")
  let version ← readContained getString j (str "version")
  return { name, version }

def General.fromJson (j : Json) : Except JsonError General := do
  let positionEncodings ← readContained (getList getString) j (str "positionEncodings")
  return { positionEncodings }

def ClientCapabilities.fromJson (j : Json) : Except JsonError ClientCapabilities := do
  let general ← readObject General.fromJson j (str "general")
  return { general }

def InitializeParams.fromJson (j : Json) : Except JsonError InitializeParams := do
  let processId ← readOpt getInt32 j (str "processId")
  let clientInfo ← readContained ClientInfo.fromJson j (str "clientInfo")
  let rootPath ← readOpt getString j (str "rootPath")
  let rootUri ← readOpt getString j (str "rootUri")
  let initializationOptions := member? j (str "initializationOptions")
  let trace ← readOpt getString j (str "trace")
  let capabilities ← readObject ClientCapabilities.fromJson j (str "capabilities")
  return {
    processId, clientInfo, rootPath, rootUri, initializationOptions, trace,
    capabilities := capabilities.getD { general := none } }

/-! ## Members at a path -/

namespace Json

/-- The member at the end of a path is missing, and its parent is there as an object. -/
def Missing : List Bytes → Json → Prop
  | [], _ => False
  | [key], j => ∃ members, j = .object members ∧ members.lookup key = none
  | key :: path, j => ∃ members child, j = .object members ∧ members.lookup key = some child ∧
      Missing path child

/-- Add a member with the value null at the end of a path. -/
def addNull : List Bytes → Json → Json
  | [key], .object members => .object (setMember key .null members)
  | key :: path, .object members =>
    match members.lookup key with
    | some child => .object (setMember key (addNull path child) members)
    | none => .object members
  | _, j => j

section Paths

variable {j child : Json} {key : Bytes} {path path' : List Bytes}

lemma find?_setMember (key : Bytes) (value : Json) (members : List (Bytes × Json)) :
    (Json.object (setMember key value members)).find? =
      Function.update (Json.object members).find? key (some value) := by
  funext key'
  by_cases h : key' = key
  · subst h
    rw [Function.update_self]
    exact lookup_setMember_self
  · rw [Function.update_of_ne h]
    exact lookup_setMember_ne h

/-- At the end of its path the member is added. -/
lemma Missing.last (h : Missing [key] j) : j.find? key = none ∧
    (addNull [key] j).find? = Function.update j.find? key (some .null) := by
  rcases h with ⟨members, rfl, hlookup⟩
  exact ⟨hlookup, find?_setMember key .null members⟩

/-- Further up the child is replaced on the path. -/
lemma Missing.inner (hpath : path ≠ []) (h : Missing (key :: path) j) :
    ∃ child, j.find? key = some child ∧ Missing path child ∧
      (addNull (key :: path) j).find? =
        Function.update j.find? key (some (addNull path child)) := by
  cases path with
  | nil => exact absurd rfl hpath
  | cons key' path =>
    rcases h with ⟨members, child, rfl, hlookup, hchild⟩
    refine ⟨child, hlookup, hchild, ?_⟩
    rw [addNull, hlookup]
    · exact find?_setMember key _ members
    · simp

/-- A member is added to an object. -/
lemma Missing.object (h : Missing path j) : ∃ members, addNull path j = .object members := by
  cases path with
  | nil => exact absurd h id
  | cons key path =>
    cases path with
    | nil =>
      rcases h with ⟨members, rfl, -⟩
      exact ⟨_, rfl⟩
    | cons key' path =>
      rcases h with ⟨members, child, rfl, hlookup, -⟩
      rw [addNull, hlookup]
      · exact ⟨_, rfl⟩
      · simp

lemma Missing.find?_of_ne {key' : Bytes} (h : Missing (key :: path) j) (hne : key' ≠ key) :
    (Json.addNull (key :: path) j).find? key' = j.find? key' := by
  cases path with
  | nil => rw [h.last.2, Function.update_of_ne hne]
  | cons =>
    rcases h.inner (by simp) with ⟨child, -, -, hfind⟩
    rw [hfind, Function.update_of_ne hne]

lemma Missing.find?_last (h : Missing [key] j) :
    (Json.addNull [key] j).find? key = some .null := by
  rw [h.last.2, Function.update_self]

/-- What is missing at a path is what `find?` says. -/
lemma missing_last_iff :
    Missing [key] j ↔ (∃ members, j = .object members) ∧ j.find? key = none := by
  constructor
  · rintro ⟨members, rfl, hlookup⟩
    exact ⟨⟨members, rfl⟩, hlookup⟩
  · rintro ⟨⟨members, rfl⟩, hlookup⟩
    exact ⟨members, rfl, hlookup⟩

lemma missing_inner_iff {key' : Bytes} : Missing (key :: key' :: path) j ↔
    ∃ child, j.find? key = some child ∧ Missing (key' :: path) child := by
  constructor
  · rintro ⟨members, child, rfl, hlookup, hchild⟩
    exact ⟨child, hlookup, hchild⟩
  · rintro ⟨child, hfind, hchild⟩
    cases j with
    | object members => exact ⟨members, child, rfl, hfind, hchild⟩
    | _ => exact absurd hfind (by simp [find?])

/-- Adding one member leaves the others missing. -/
lemma Missing.addNull (h : Missing path j) (h' : Missing path' j) (hne : path ≠ path') :
    Missing path' (addNull path j) := by
  induction path generalizing path' j with
  | nil => exact absurd h id
  | cons key path ih =>
    -- the other member is not under `key`, or it is missing in the child
    cases path' with
    | nil => exact absurd h' id
    | cons key' path' =>
      cases path' with
      | nil =>
        rcases missing_last_iff.mp h' with ⟨-, hnone⟩
        have hkey : key' ≠ key := by
          rintro rfl
          cases path with
          | nil => exact hne rfl
          | cons =>
            rcases h.inner (by simp) with ⟨child, hsome, -⟩
            rw [hnone] at hsome
            cases hsome
        exact missing_last_iff.mpr ⟨h.object, (h.find?_of_ne hkey).trans hnone⟩
      | cons key'' path' =>
        rcases missing_inner_iff.mp h' with ⟨child', hsome', hchild'⟩
        by_cases hkey : key' = key
        · subst hkey
          cases path with
          | nil =>
            rw [h.last.1] at hsome'
            cases hsome'
          | cons =>
            rcases h.inner (by simp) with ⟨child, hsome, hchild, hfind⟩
            obtain rfl := Option.some.inj (hsome.symm.trans hsome')
            refine missing_inner_iff.mpr ⟨_, ?_, ih hchild hchild' fun heq => hne (heq ▸ rfl)⟩
            rw [hfind, Function.update_self]
        · exact missing_inner_iff.mpr ⟨child', (h.find?_of_ne hkey).trans hsome', hchild'⟩

/-! The readers that take an added member for absent. -/

section Readers

variable {α : Type} {get : Json → Except JsonError α} {key' : Bytes}

lemma Missing.readOpt (h : Missing [key] j) (key' : Bytes) :
    Json.readOpt get (Json.addNull [key] j) key' = Json.readOpt get j key' := by
  by_cases hkey : key' = key
  · subst hkey
    rw [readOpt_of_find?_null h.find?_last, readOpt_of_find?_none h.last.1]
  · exact readOpt_congr (h.find?_of_ne hkey)

lemma Missing.member? (h : Missing [key] j) (key' : Bytes) :
    Json.member? (Json.addNull [key] j) key' = Json.member? j key' := by
  rw [member?_eq_find?, member?_eq_find?]
  by_cases hkey : key' = key
  · subst hkey
    rw [h.find?_last, h.last.1]
    rfl
  · rw [h.find?_of_ne hkey]

lemma Missing.readObject (h : Missing [key] j) (key' : Bytes) :
    Json.readObject get (Json.addNull [key] j) key' = Json.readObject get j key' := by
  by_cases hkey : key' = key
  · subst hkey
    unfold Json.readObject
    rw [h.find?_last, h.last.1]
  · exact readObject_congr (h.find?_of_ne hkey)

end Readers

end Paths

end Json

/-! ## The optional members -/

/-- The members of the params that may be missing. -/
inductive OptionalMember
  | processId
  | clientInfo
  | clientInfoVersion
  | rootPath
  | rootUri
  | initializationOptions
  | trace
  | capabilities
  | general
  | positionEncodings
deriving DecidableEq, Repr

namespace OptionalMember

def path : OptionalMember → List Bytes
  | processId => [str "processId"]
  | clientInfo => [str "clientInfo"]
  | clientInfoVersion => [str "clientInfo", str "version"]
  | rootPath => [str "rootPath"]
  | rootUri => [str "rootUri"]
  | initializationOptions => [str "initializationOptions"]
  | trace => [str "trace"]
  | capabilities => [str "capabilities"]
  | general => [str "capabilities", str "general"]
  | positionEncodings => [str "capabilities", str "general", str "positionEncodings"]

/-- The members whose readers test for null, or for an object. -/
def Tested : OptionalMember → Prop
  | clientInfo => False
  | clientInfoVersion => False
  | positionEncodings => False
  | _ => True

def all : List OptionalMember :=
  [processId, clientInfo, clientInfoVersion, rootPath, rootUri, initializationOptions, trace,
    capabilities, general, positionEncodings]

lemma mem_all (m : OptionalMember) : m ∈ all := by
  cases m <;> decide

lemma path_injective : Function.Injective path := by
  intro m m' h
  cases m <;> cases m' <;> first | rfl | exact absurd h (by decide)

end OptionalMember

/-- The members of a set added with the value null. -/
def Json.addNulls (S : Finset OptionalMember) (j : Json) : Json :=
  (OptionalMember.all.filter (· ∈ S)).foldl (fun j m => j.addNull m.path) j

section Decode

variable {j : Json} {p : InitializeParams}

/-- The reader depends on what its own readers read. -/
lemma InitializeParams.fromJson_congr {j' : Json}
    (hother : ∀ key, key ≠ str "clientInfo" → key ≠ str "capabilities" →
      j'.find? key = j.find? key)
    (hclient : readContained ClientInfo.fromJson j' (str "clientInfo") =
      readContained ClientInfo.fromJson j (str "clientInfo"))
    (hcapabilities : readObject ClientCapabilities.fromJson j' (str "capabilities") =
      readObject ClientCapabilities.fromJson j (str "capabilities")) :
    InitializeParams.fromJson j' = InitializeParams.fromJson j := by
  have hopt : ∀ {α : Type} (get : Json → Except JsonError α) (key : Bytes),
      key ≠ str "clientInfo" → key ≠ str "capabilities" →
        readOpt get j' key = readOpt get j key :=
    fun get key h h' => Json.readOpt_congr (hother key h h')
  have hoptions : member? j' (str "initializationOptions") =
      member? j (str "initializationOptions") := by
    rw [Json.member?_eq_find?, Json.member?_eq_find?, hother _ (by decide) (by decide)]
  rw [InitializeParams.fromJson, InitializeParams.fromJson,
    hopt _ (str "processId") (by decide) (by decide), hclient,
    hopt _ (str "rootPath") (by decide) (by decide),
    hopt _ (str "rootUri") (by decide) (by decide), hoptions,
    hopt _ (str "trace") (by decide) (by decide), hcapabilities]

/-- What was read when the params are decoded. -/
lemma InitializeParams.fromJson_inv (h : InitializeParams.fromJson j = .ok p) :
    readContained ClientInfo.fromJson j (str "clientInfo") = .ok p.clientInfo ∧
      ∃ capabilities, readObject ClientCapabilities.fromJson j (str "capabilities") =
        .ok capabilities := by
  rcases Json.bind_eq_ok.mp h with ⟨processId, -, h⟩
  rcases Json.bind_eq_ok.mp h with ⟨clientInfo, hclient, h⟩
  rcases Json.bind_eq_ok.mp h with ⟨rootPath, -, h⟩
  rcases Json.bind_eq_ok.mp h with ⟨rootUri, -, h⟩
  rcases Json.bind_eq_ok.mp h with ⟨trace, -, h⟩
  rcases Json.bind_eq_ok.mp h with ⟨capabilities, hcapabilities, h⟩
  obtain rfl := Except.ok.inj h
  exact ⟨hclient, capabilities, hcapabilities⟩

/-- A member at the top that is added changes what is found under its key only. -/
lemma fromJson_addNull_top {key : Bytes} (h : j.Missing [key]) (hkey : str "clientInfo" ≠ key) :
    InitializeParams.fromJson (Json.addNull [key] j) = InitializeParams.fromJson j := by
  have hclient : readContained ClientInfo.fromJson (Json.addNull [key] j) (str "clientInfo") =
      readContained ClientInfo.fromJson j (str "clientInfo") :=
    Json.readContained_congr (h.find?_of_ne hkey)
  simp only [InitializeParams.fromJson, h.readOpt, h.member?, h.readObject, hclient]

/-- Null is no `ClientInfo`. -/
lemma not_fromJson_addNull_clientInfo (h : j.Missing [str "clientInfo"]) :
    InitializeParams.fromJson (Json.addNull [str "clientInfo"] j) ≠ .ok p := by
  intro hdecode
  have hread := (InitializeParams.fromJson_inv hdecode).1
  rw [Json.readContained_of_find? h.find?_last] at hread
  cases hread

/-- It is no version. -/
lemma not_fromJson_addNull_version (h : j.Missing [str "clientInfo", str "version"]) :
    InitializeParams.fromJson (Json.addNull [str "clientInfo", str "version"] j) ≠ .ok p := by
  intro hdecode
  rcases h.inner (by simp) with ⟨child, -, hchild, hfind⟩
  have hclient : find? (Json.addNull [str "clientInfo", str "version"] j) (str "clientInfo") =
      some (Json.addNull [str "version"] child) := by rw [hfind, Function.update_self]
  have hread := (InitializeParams.fromJson_inv hdecode).1
  rw [Json.readContained_of_find? hclient] at hread
  rcases Json.map_eq_ok hread with ⟨info, hinfo⟩
  rcases Json.bind_eq_ok.mp hinfo with ⟨name, -, hinfo⟩
  rcases Json.bind_eq_ok.mp hinfo with ⟨version, hversion, -⟩
  rw [Json.readContained_of_find? hchild.find?_last] at hversion
  cases hversion

/-- The capabilities that are read when they are an object in which a member is added. -/
lemma readObject_capabilities {path : List Bytes} (hpath : path ≠ [])
    (h : j.Missing (str "capabilities" :: path)) :
    ∃ child, Json.Missing path child ∧
      readObject ClientCapabilities.fromJson (Json.addNull (str "capabilities" :: path) j)
          (str "capabilities") = some <$> ClientCapabilities.fromJson (Json.addNull path child) ∧
      ((∃ members, child = .object members) →
        readObject ClientCapabilities.fromJson j (str "capabilities") =
          some <$> ClientCapabilities.fromJson child) := by
  rcases h.inner hpath with ⟨child, hsome, hchild, hfind⟩
  rcases hchild.object with ⟨members, hobject⟩
  have hadded : find? (Json.addNull (str "capabilities" :: path) j) (str "capabilities") =
      some (.object members) := by rw [hfind, Function.update_self, hobject]
  refine ⟨child, hchild, ?_, ?_⟩
  · rw [Json.readObject_of_find? hadded, hobject]
  · rintro ⟨members', rfl⟩
    exact Json.readObject_of_find? hsome

lemma fromJson_addNull_general (h : j.Missing [str "capabilities", str "general"]) :
    InitializeParams.fromJson (Json.addNull [str "capabilities", str "general"] j) =
      InitializeParams.fromJson j := by
  rcases readObject_capabilities (by simp) h with ⟨child, hchild, hadded, hread⟩
  apply InitializeParams.fromJson_congr
  · intro key _ hkey
    exact h.find?_of_ne hkey
  · exact Json.readContained_congr (h.find?_of_ne (by decide))
  · rw [hadded, hread (Json.missing_last_iff.mp hchild).1, ClientCapabilities.fromJson,
      hchild.readObject]
    rfl

/-- Null is no list of encodings. -/
lemma not_fromJson_addNull_encodings
    (h : j.Missing [str "capabilities", str "general", str "positionEncodings"]) :
    InitializeParams.fromJson
      (Json.addNull [str "capabilities", str "general", str "positionEncodings"] j) ≠ .ok p := by
  intro hdecode
  rcases readObject_capabilities (by simp) h with ⟨child, hchild, hadded, -⟩
  rcases (InitializeParams.fromJson_inv hdecode).2 with ⟨capabilities, hread⟩
  rw [hadded] at hread
  rcases Json.map_eq_ok hread with ⟨_, hcapabilities⟩
  rcases Json.bind_eq_ok.mp hcapabilities with ⟨general, hgeneral, -⟩
  -- `general` is an object in which the encodings are null
  rcases hchild.inner (by simp) with ⟨child', -, hchild', hfind⟩
  rcases hchild'.object with ⟨members, hobject⟩
  have hfound : find? (Json.addNull [str "general", str "positionEncodings"] child)
      (str "general") = some (.object members) := by rw [hfind, Function.update_self, hobject]
  rw [Json.readObject_of_find? hfound, ← hobject] at hgeneral
  rcases Json.map_eq_ok hgeneral with ⟨_, hencodings⟩
  rcases Json.bind_eq_ok.mp hencodings with ⟨_, hencodings, -⟩
  rw [Json.readContained_of_find? hchild'.find?_last] at hencodings
  cases hencodings

/-- One member that is added leaves the result as it is when its reader tests for null or for an
object, and makes decoding throw otherwise. -/
theorem fromJson_addNull_iff {m : OptionalMember} (h : j.Missing m.path) :
    InitializeParams.fromJson (j.addNull m.path) = .ok p ↔
      m.Tested ∧ InitializeParams.fromJson j = .ok p := by
  have hsame : m.Tested → InitializeParams.fromJson (j.addNull m.path) =
      InitializeParams.fromJson j → (InitializeParams.fromJson (j.addNull m.path) = .ok p ↔
        m.Tested ∧ InitializeParams.fromJson j = .ok p) := by
    intro htested heq
    rw [heq]
    exact (and_iff_right htested).symm
  cases m with
  | clientInfo =>
    exact iff_of_false (not_fromJson_addNull_clientInfo h) fun htested => htested.1
  | clientInfoVersion =>
    exact iff_of_false (not_fromJson_addNull_version h) fun htested => htested.1
  | positionEncodings =>
    exact iff_of_false (not_fromJson_addNull_encodings h) fun htested => htested.1
  | general => exact hsame trivial (fromJson_addNull_general h)
  | processId | rootPath | rootUri | initializationOptions | trace | capabilities =>
    exact hsame trivial (fromJson_addNull_top h (by decide))

/-! ## The result -/

/-- The same for a list of members, added one after the other. -/
lemma fromJson_foldl_addNull_iff {ms : List OptionalMember} (hnodup : ms.Nodup)
    (h : ∀ m ∈ ms, j.Missing m.path) :
    InitializeParams.fromJson (ms.foldl (fun j m => j.addNull m.path) j) = .ok p ↔
      (∀ m ∈ ms, m.Tested) ∧ InitializeParams.fromJson j = .ok p := by
  induction ms generalizing j with
  | nil => simp
  | cons m ms ih =>
    rw [List.nodup_cons] at hnodup
    rw [List.forall_mem_cons] at h
    have hrest : ∀ m' ∈ ms, Json.Missing m'.path (j.addNull m.path) := by
      intro m' hmem
      apply h.1.addNull (h.2 m' hmem)
      intro heq
      exact hnodup.1 (OptionalMember.path_injective heq ▸ hmem)
    rw [List.foldl_cons, ih hnodup.2 hrest, fromJson_addNull_iff h.1, List.forall_mem_cons]
    constructor
    · rintro ⟨htested, hm, hj⟩
      exact ⟨⟨hm, htested⟩, hj⟩
    · rintro ⟨⟨hm, htested⟩, hj⟩
      exact ⟨htested, hm, hj⟩

/-- Params that are decoded, and a set of optional members that are missing in them: added with the
value null they leave the result as it is exactly when their readers test for null or for an
object. -/
theorem null_means_absent_iff (j : Json) (p : InitializeParams) (S : Finset OptionalMember)
    (hdecode : InitializeParams.fromJson j = .ok p) (hmissing : ∀ m ∈ S, j.Missing m.path) :
    InitializeParams.fromJson (j.addNulls S) = .ok p ↔ ∀ m ∈ S, m.Tested := by
  have hnodup : (OptionalMember.all.filter (· ∈ S)).Nodup :=
    List.Nodup.filter _ (by decide)
  have hmem : ∀ m, m ∈ OptionalMember.all.filter (· ∈ S) ↔ m ∈ S := by
    intro m
    simp [m.mem_all]
  rw [Json.addNulls, fromJson_foldl_addNull_iff hnodup fun m hm => hmissing m ((hmem m).mp hm)]
  simp only [hmem, hdecode, and_true]

namespace Session

/-- Params with nothing but empty capabilities. -/
def bareParams : Json :=
  .ofMembers [(str "capabilities", .ofMembers [])]

def bare : InitializeParams where
  processId := none
  clientInfo := none
  rootPath := none
  rootUri := none
  initializationOptions := none
  capabilities := { general := none }
  trace := none

end Session

/-- Two members that may be null. -/
theorem null_means_absent_sample :
    InitializeParams.fromJson (Session.bareParams.addNulls {.processId, .general}) =
      .ok Session.bare := by
  have hmissing : ∀ m ∈ ({.processId, .general} : Finset OptionalMember),
      Session.bareParams.Missing m.path := by
    intro m hm
    rcases Finset.mem_insert.mp hm with rfl | hm
    · exact ⟨_, rfl, rfl⟩
    · rw [Finset.mem_singleton.mp hm]
      exact ⟨_, _, rfl, rfl, _, rfl, rfl⟩
  refine (null_means_absent_iff Session.bareParams Session.bare _ rfl hmissing).mpr ?_
  intro m hm
  rcases Finset.mem_insert.mp hm with rfl | hm
  · trivial
  · rw [Finset.mem_singleton.mp hm]
    trivial

/-- A `clientInfo` that is null makes decoding throw. -/
theorem not_null_means_absent :
    InitializeParams.fromJson Session.bareParams = .ok Session.bare ∧
      Session.bareParams.Missing (OptionalMember.path .clientInfo) ∧
      InitializeParams.fromJson (Session.bareParams.addNulls {.clientInfo}) =
        .error .typeError :=
  ⟨rfl, ⟨_, rfl, rfl⟩, rfl⟩

end Decode

end CLSP
