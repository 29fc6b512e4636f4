import CLSP.Protocol.Positions
import CLSP.SemanticTokens.Theorems

/-!
# Semantic tokens on the wire

The `to_json` and `from_json` functions of `protocol/SemanticTokens.hpp`. A client reads the legend
in the options of the server and the data in the answers, and finds under their names the tokens
that were pushed.
-/

namespace CLSP

open Json (find? ofFields getList getString getUInt32 readAt readAt_ofFields find?_ofFields
  getList_array_self)

/-! ## The structures -/

structure SemanticTokensLegend where
  tokenTypes : List Bytes
  tokenModifiers : List Bytes
deriving DecidableEq, Repr

structure SemanticTokensOptions where
  legend : SemanticTokensLegend
  range : Option Bool
  full : Option Bool
deriving DecidableEq, Repr

/-! ## `to_json` and `from_json` -/

/-- A `std::vector<std::string>`. -/
def Json.ofStrings (strings : List Bytes) : Json :=
  .array (strings.map .string)

def SemanticTokensLegend.fields (l : SemanticTokensLegend) : List (Bytes × Option Json) :=
  [(str "tokenTypes", some (.ofStrings l.tokenTypes)),
    (str "tokenModifiers", some (.ofStrings l.tokenModifiers))]

def SemanticTokensLegend.toJson (l : SemanticTokensLegend) : Json :=
  ofFields l.fields

def SemanticTokensLegend.fromJson (j : Json) : Except JsonError SemanticTokensLegend := do
  let tokenTypes ← readAt (getList getString) j (str "tokenTypes")
  let tokenModifiers ← readAt (getList getString) j (str "tokenModifiers")
  return { tokenTypes, tokenModifiers }

def SemanticTokensOptions.fields (o : SemanticTokensOptions) : List (Bytes × Option Json) :=
  [(str "legend", some o.legend.toJson), (str "range", o.range.map .boolean),
    (str "full", o.full.map .boolean)]

def SemanticTokensOptions.toJson (o : SemanticTokensOptions) : Json :=
  ofFields o.fields

def SemanticTokens.fields (t : SemanticTokens) : List (Bytes × Option Json) :=
  [(str "resultId", t.resultId.map .string),
    (str "data", some (.array (t.data.map fun n => .integer n.toNat)))]

def SemanticTokens.toJson (t : SemanticTokens) : Json :=
  ofFields t.fields

/-- A `resultId` that is not a string is left out. -/
def readResultId (j : Json) : Option Bytes :=
  match find? j (str "resultId") with
  | some (.string s) => some s
  | _ => none

def SemanticTokens.fromJson (j : Json) : Except JsonError SemanticTokens := do
  let data ← readAt (getList getUInt32) j (str "data")
  return { resultId := readResultId j, data }

/-! ## Round trips -/

lemma getList_ofStrings (strings : List Bytes) :
    getList getString (.ofStrings strings) = .ok strings := by
  have hstring : ∀ s : Bytes, getString (.string s) = .ok s := fun _ => rfl
  exact getList_array_self hstring strings

lemma SemanticTokensLegend.nodup_keys (l : SemanticTokensLegend) :
    (l.fields.map Prod.fst).Nodup :=
  have hkeys : [str "tokenTypes", str "tokenModifiers"].Nodup := by decide
  hkeys

lemma SemanticTokensLegend.fromJson_toJson (l : SemanticTokensLegend) :
    SemanticTokensLegend.fromJson l.toJson = .ok l := by
  have htypes : readAt (getList getString) l.toJson (str "tokenTypes") = .ok l.tokenTypes :=
    readAt_ofFields (i := 0) l.nodup_keys rfl (getList_ofStrings _)
  have hmodifiers : readAt (getList getString) l.toJson (str "tokenModifiers") =
      .ok l.tokenModifiers :=
    readAt_ofFields (i := 1) l.nodup_keys rfl (getList_ofStrings _)
  rw [SemanticTokensLegend.fromJson, htypes, hmodifiers]
  rfl

lemma SemanticTokensOptions.nodup_keys (o : SemanticTokensOptions) :
    (o.fields.map Prod.fst).Nodup :=
  have hkeys : [str "legend", str "range", str "full"].Nodup := by decide
  hkeys

lemma SemanticTokens.nodup_keys (t : SemanticTokens) : (t.fields.map Prod.fst).Nodup :=
  have hkeys : [str "resultId", str "data"].Nodup := by decide
  hkeys

lemma SemanticTokens.fromJson_toJson (t : SemanticTokens) :
    SemanticTokens.fromJson t.toJson = .ok t := by
  have hresultId : readResultId t.toJson = t.resultId := by
    have hfind : find? t.toJson (str "resultId") = t.resultId.map .string :=
      find?_ofFields (i := 0) t.nodup_keys rfl
    unfold readResultId
    rw [hfind]
    cases t.resultId <;> rfl
  have hdata : readAt (getList getUInt32) t.toJson (str "data") = .ok t.data :=
    readAt_ofFields (i := 1) t.nodup_keys rfl (getList_array_self getUInt32_integer t.data)
  rw [SemanticTokens.fromJson, hdata, hresultId]
  rfl

/-! ## What the client sees -/

/-- A token with the names of its type and modifiers; an index beyond the legend has none. -/
structure NamedToken where
  line : ℕ
  startChar : ℕ
  length : UInt32
  tokenType : Option Bytes
  tokenModifiers : List Bytes
deriving DecidableEq, Repr

/-- The modifier at index `n` of the legend applies if bit `n` is set. -/
def SemanticTokensLegend.name (legend : SemanticTokensLegend) (t : PlacedToken) : NamedToken where
  line := t.line
  startChar := t.startChar
  length := t.length
  tokenType := legend.tokenTypes[t.tokenType.toNat]?
  tokenModifiers := legend.tokenModifiers.zipIdx.filterMap fun (modifier, n) =>
    if t.tokenModifiers.toNat.testBit n then some modifier else none

/-- What a client makes of an answer and of the options the server has announced. -/
def receiveTokens (options answer : Json) : Except JsonError (List NamedToken) := do
  let legend ← readAt SemanticTokensLegend.fromJson options (str "legend")
  let tokens ← SemanticTokens.fromJson answer
  return (decodeTokens tokens.data 0 0).map legend.name

lemma receiveTokens_toJson (options : SemanticTokensOptions) (tokens : SemanticTokens) :
    receiveTokens options.toJson tokens.toJson =
      .ok ((decodeTokens tokens.data 0 0).map options.legend.name) := by
  have hlegend : readAt SemanticTokensLegend.fromJson options.toJson (str "legend") =
      .ok options.legend :=
    readAt_ofFields (i := 0) options.nodup_keys rfl options.legend.fromJson_toJson
  rw [receiveTokens, hlegend, SemanticTokens.fromJson_toJson]
  rfl

def NamedToken.Le (a b : NamedToken) : Prop :=
  a.line < b.line ∨ a.line = b.line ∧ a.startChar ≤ b.startChar

/-- What is expected of an exchange of semantic tokens. -/
structure TokensReceived (options : SemanticTokensOptions) (pushed : List Token)
    (result : SemanticTokens) (received : List NamedToken) : Prop where
  reads : receiveTokens options.toJson result.toJson = .ok received
  /-- The tokens that were pushed, under their names. -/
  perm : received.Perm (pushed.map fun t => options.legend.name t.placed)
  ordered : received.Pairwise NamedToken.Le

/-- **Semantic tokens reach the client.** Whatever was pushed, cleared and built before, a client
that reads what `build` returns with the legend it has been given sees the tokens of the builder. -/
theorem semantic_tokens_received (options : SemanticTokensOptions)
    (calls : List SemanticTokensBuilder.Call) (b b' : SemanticTokensBuilder)
    (result : SemanticTokens) (hrun : Transition.Run SemanticTokensBuilder.Step {} calls b)
    (hstep : SemanticTokensBuilder.Step b (.build result) b') :
    ∃ received, TokensReceived options (SemanticTokensBuilder.pushed calls) result received := by
  cases hstep with
  | build hbuild =>
    have hplaced := hbuild.sorts.pairwise_placed
    have hperm : b'.tokens_.Perm (SemanticTokensBuilder.pushed calls) :=
      hbuild.sorts.perm.trans (SemanticTokensBuilder.perm_pushed hrun)
    have hdecode : (decodeTokens result.data 0 0).map options.legend.name =
        b'.tokens_.map fun t => options.legend.name t.placed := by
      rw [hbuild.result_eq]
      show (decodeTokens (buildLoop b'.tokens_ 0 0 true) 0 0).map _ = _
      rw [decodeTokens_buildLoop hplaced, List.map_map]
      rfl
    refine ⟨_, receiveTokens_toJson options result, ?_, ?_⟩
    · rw [hdecode]
      exact hperm.map _
    · rw [hdecode, List.pairwise_map]
      exact hplaced

/-- A keyword and a read-only variable behind it. -/
theorem semantic_tokens_received_sample :
    ∃ received, TokensReceived
      ⟨⟨[str "keyword", str "variable"], [str "declaration", str "readonly"]⟩, none, some true⟩
      [⟨0, 4, 1, 1, 2⟩, ⟨0, 0, 3, 0, 0⟩] ⟨none, [0, 0, 3, 0, 0, 0, 4, 1, 1, 2]⟩ received := by
  have hrun : Transition.Run SemanticTokensBuilder.Step {} [.push ⟨0, 4, 1, 1, 2⟩,
      .push ⟨0, 0, 3, 0, 0⟩] ⟨[⟨0, 4, 1, 1, 2⟩, ⟨0, 0, 3, 0, 0⟩]⟩ :=
    (Transition.Run.nil.snoc (.push _ _)).snoc (.push _ _)
  exact semantic_tokens_received _ _ _ ⟨[⟨0, 0, 3, 0, 0⟩, ⟨0, 4, 1, 1, 2⟩]⟩ _ hrun
    (.build ⟨⟨by decide, by decide⟩, rfl⟩)

end CLSP
