import CLSP.Protocol.Completion
import CLSP.Protocol.SemanticTokens
import CLSP.Server.Server

/-!
# The result of `initialize`

The `to_json` functions of `protocol/Capabilities.hpp` and of the `InitializeResult` of
`protocol/Lifecycle.hpp`. Members that are not set are left out; nothing else is lost.
-/

namespace CLSP

open Json (find? ofFields ofStrings find?_ofFields)

/-! ## The structures -/

structure CompletionOptions where
  triggerCharacters : Option (List Bytes)
  allCommitCharacters : Option (List Bytes)
  resolveProvider : Option Bool
deriving DecidableEq, Repr

structure SignatureHelpOptions where
  triggerCharacters : Option (List Bytes)
  retriggerCharacters : Option (List Bytes)
deriving DecidableEq, Repr

structure CodeActionOptions where
  codeActionKinds : Option (List Bytes)
  resolveProvider : Option Bool
deriving DecidableEq, Repr

structure RenameOptions where
  prepareProvider : Option Bool
deriving DecidableEq, Repr

structure DiagnosticOptions where
  identifier : Option Bytes
  interFileDependencies : Bool := false
  workspaceDiagnostics : Bool := false
deriving DecidableEq, Repr

structure ServerCapabilities where
  textDocumentSync : Option TextDocumentSyncKind := none
  positionEncoding : Option Bytes := none
  hoverProvider : Option Bool := none
  completionProvider : Option CompletionOptions := none
  definitionProvider : Option Bool := none
  referencesProvider : Option Bool := none
  documentSymbolProvider : Option Bool := none
  documentFormattingProvider : Option Bool := none
  signatureHelpProvider : Option SignatureHelpOptions := none
  codeActionProvider : Option CodeActionOptions := none
  renameProvider : Option RenameOptions := none
  diagnosticProvider : Option DiagnosticOptions := none
  semanticTokensProvider : Option SemanticTokensOptions := none
deriving DecidableEq, Repr

/-- `InitializeResult::ServerInfo` -/
structure ServerInfo where
  name : Bytes
  version : Option Bytes
deriving DecidableEq, Repr

structure InitializeResult where
  capabilities : ServerCapabilities
  serverInfo : Option ServerInfo := none
deriving DecidableEq, Repr

/-! ## `to_json` -/

/-- `static_cast<int>` -/
def TextDocumentSyncKind.value : TextDocumentSyncKind → ℤ
  | .None => 0
  | .Full => 1
  | .Incremental => 2

def TextDocumentSyncKind.toJson (kind : TextDocumentSyncKind) : Json :=
  .integer kind.value

def CompletionOptions.fields (o : CompletionOptions) : List (Bytes × Option Json) :=
  [(str "triggerCharacters", o.triggerCharacters.map .ofStrings),
    (str "allCommitCharacters", o.allCommitCharacters.map .ofStrings),
    (str "resolveProvider", o.resolveProvider.map .boolean)]

def CompletionOptions.toJson (o : CompletionOptions) : Json :=
  ofFields o.fields

def SignatureHelpOptions.fields (o : SignatureHelpOptions) : List (Bytes × Option Json) :=
  [(str "triggerCharacters", o.triggerCharacters.map .ofStrings),
    (str "retriggerCharacters", o.retriggerCharacters.map .ofStrings)]

def SignatureHelpOptions.toJson (o : SignatureHelpOptions) : Json :=
  ofFields o.fields

def CodeActionOptions.fields (o : CodeActionOptions) : List (Bytes × Option Json) :=
  [(str "codeActionKinds", o.codeActionKinds.map .ofStrings),
    (str "resolveProvider", o.resolveProvider.map .boolean)]

def CodeActionOptions.toJson (o : CodeActionOptions) : Json :=
  ofFields o.fields

def RenameOptions.fields (o : RenameOptions) : List (Bytes × Option Json) :=
  [(str "prepareProvider", o.prepareProvider.map .boolean)]

def RenameOptions.toJson (o : RenameOptions) : Json :=
  ofFields o.fields

def DiagnosticOptions.fields (o : DiagnosticOptions) : List (Bytes × Option Json) :=
  [(str "identifier", o.identifier.map .string),
    (str "interFileDependencies", some (.boolean o.interFileDependencies)),
    (str "workspaceDiagnostics", some (.boolean o.workspaceDiagnostics))]

def DiagnosticOptions.toJson (o : DiagnosticOptions) : Json :=
  ofFields o.fields

def ServerCapabilities.fields (c : ServerCapabilities) : List (Bytes × Option Json) :=
  [(str "textDocumentSync", c.textDocumentSync.map TextDocumentSyncKind.toJson),
    (str "positionEncoding", c.positionEncoding.map .string),
    (str "hoverProvider", c.hoverProvider.map .boolean),
    (str "completionProvider", c.completionProvider.map CompletionOptions.toJson),
    (str "definitionProvider", c.definitionProvider.map .boolean),
    (str "referencesProvider", c.referencesProvider.map .boolean),
    (str "documentSymbolProvider", c.documentSymbolProvider.map .boolean),
    (str "documentFormattingProvider", c.documentFormattingProvider.map .boolean),
    (str "signatureHelpProvider", c.signatureHelpProvider.map SignatureHelpOptions.toJson),
    (str "codeActionProvider", c.codeActionProvider.map CodeActionOptions.toJson),
    (str "renameProvider", c.renameProvider.map RenameOptions.toJson),
    (str "diagnosticProvider", c.diagnosticProvider.map DiagnosticOptions.toJson),
    (str "semanticTokensProvider", c.semanticTokensProvider.map SemanticTokensOptions.toJson)]

def ServerCapabilities.toJson (c : ServerCapabilities) : Json :=
  ofFields c.fields

def ServerInfo.fields (i : ServerInfo) : List (Bytes × Option Json) :=
  [(str "name", some (.string i.name)), (str "version", i.version.map .string)]

def ServerInfo.toJson (i : ServerInfo) : Json :=
  ofFields i.fields

def InitializeResult.fields (r : InitializeResult) : List (Bytes × Option Json) :=
  [(str "capabilities", some r.capabilities.toJson),
    (str "serverInfo", r.serverInfo.map ServerInfo.toJson)]

def InitializeResult.toJson (r : InitializeResult) : Json :=
  ofFields r.fields

/-! ## Nothing is lost -/

lemma Json.boolean_injective : Function.Injective Json.boolean :=
  fun _ _ h => Json.boolean.inj h

lemma Json.string_injective : Function.Injective Json.string :=
  fun _ _ h => Json.string.inj h

lemma Json.ofStrings_injective : Function.Injective ofStrings :=
  fun _ _ h => List.map_injective_iff.mpr Json.string_injective (Json.array.inj h)

lemma TextDocumentSyncKind.toJson_injective : Function.Injective toJson := by
  intro a b h
  have hvalue := Json.integer.inj h
  cases a <;> cases b <;> first | rfl | exact absurd hvalue (by decide)

/-- What is written under fixed keys is determined by its members. -/
lemma injective_of_fields {α : Type} {fields : α → List (Bytes × Option Json)} {keys : List Bytes}
    (hnodup : keys.Nodup) (hkeys : ∀ x, (fields x).map Prod.fst = keys)
    (h : Function.Injective fields) : Function.Injective fun x => ofFields (fields x) := by
  intro x y heq
  have hnodup' : ((fields x).map Prod.fst).Nodup := (hkeys x).symm ▸ hnodup
  exact h (Json.fields_eq_of_ofFields_eq hnodup' ((hkeys x).trans (hkeys y).symm) heq)

/-! Optional members. -/

section Members

variable {α : Type} {put : α → Json} (h : Function.Injective put) {x y : Option α}
include h

lemma map_put_inj : x.map put = y.map put ↔ x = y :=
  (Option.map_injective h).eq_iff

end Members

lemma SemanticTokensOptions.toJson_injective : Function.Injective toJson := by
  have hlegend := injective_of_fromJson_toJson SemanticTokensLegend.fromJson_toJson
  have hkeys : [str "legend", str "range", str "full"].Nodup := by decide
  refine injective_of_fields hkeys (fun _ => rfl) ?_
  rintro ⟨_, _, _⟩ ⟨_, _, _⟩ h
  simpa [fields, map_put_inj Json.boolean_injective, hlegend.eq_iff] using h

lemma CompletionOptions.toJson_injective : Function.Injective toJson := by
  have hkeys : [str "triggerCharacters", str "allCommitCharacters", str "resolveProvider"].Nodup :=
    by decide
  refine injective_of_fields hkeys (fun _ => rfl) ?_
  rintro ⟨_, _, _⟩ ⟨_, _, _⟩ h
  simpa [fields, map_put_inj Json.boolean_injective, map_put_inj Json.ofStrings_injective] using h

lemma SignatureHelpOptions.toJson_injective : Function.Injective toJson := by
  have hkeys : [str "triggerCharacters", str "retriggerCharacters"].Nodup := by decide
  refine injective_of_fields hkeys (fun _ => rfl) ?_
  rintro ⟨_, _⟩ ⟨_, _⟩ h
  simpa [fields, map_put_inj Json.ofStrings_injective] using h

lemma CodeActionOptions.toJson_injective : Function.Injective toJson := by
  have hkeys : [str "codeActionKinds", str "resolveProvider"].Nodup := by decide
  refine injective_of_fields hkeys (fun _ => rfl) ?_
  rintro ⟨_, _⟩ ⟨_, _⟩ h
  simpa [fields, map_put_inj Json.boolean_injective, map_put_inj Json.ofStrings_injective] using h

lemma RenameOptions.toJson_injective : Function.Injective toJson := by
  have hkeys : [str "prepareProvider"].Nodup := by decide
  refine injective_of_fields hkeys (fun _ => rfl) ?_
  rintro ⟨_⟩ ⟨_⟩ h
  simpa [fields, map_put_inj Json.boolean_injective] using h

lemma DiagnosticOptions.toJson_injective : Function.Injective toJson := by
  have hkeys : [str "identifier", str "interFileDependencies", str "workspaceDiagnostics"].Nodup :=
    by decide
  refine injective_of_fields hkeys (fun _ => rfl) ?_
  rintro ⟨_, _, _⟩ ⟨_, _, _⟩ h
  simpa [fields, map_put_inj Json.string_injective] using h

/-- The keys of the capabilities. -/
def ServerCapabilities.keys : List Bytes :=
  [str "textDocumentSync", str "positionEncoding", str "hoverProvider", str "completionProvider",
    str "definitionProvider", str "referencesProvider", str "documentSymbolProvider",
    str "documentFormattingProvider", str "signatureHelpProvider", str "codeActionProvider",
    str "renameProvider", str "diagnosticProvider", str "semanticTokensProvider"]

lemma ServerCapabilities.nodup_keys : keys.Nodup := by decide

lemma ServerCapabilities.toJson_injective : Function.Injective toJson := by
  refine injective_of_fields nodup_keys (fun _ => rfl) ?_
  rintro ⟨_, _, _, _, _, _, _, _, _, _, _, _, _⟩ ⟨_, _, _, _, _, _, _, _, _, _, _, _, _⟩ h
  simpa [fields, map_put_inj TextDocumentSyncKind.toJson_injective,
    map_put_inj Json.string_injective, map_put_inj Json.boolean_injective,
    map_put_inj CompletionOptions.toJson_injective,
    map_put_inj SignatureHelpOptions.toJson_injective,
    map_put_inj CodeActionOptions.toJson_injective, map_put_inj RenameOptions.toJson_injective,
    map_put_inj DiagnosticOptions.toJson_injective,
    map_put_inj SemanticTokensOptions.toJson_injective] using h

lemma ServerInfo.toJson_injective : Function.Injective toJson := by
  have hkeys : [str "name", str "version"].Nodup := by decide
  refine injective_of_fields hkeys (fun _ => rfl) ?_
  rintro ⟨_, _⟩ ⟨_, _⟩ h
  simpa [fields, map_put_inj Json.string_injective] using h

lemma InitializeResult.nodup_keys (r : InitializeResult) : (r.fields.map Prod.fst).Nodup :=
  have hkeys : [str "capabilities", str "serverInfo"].Nodup := by decide
  hkeys

/-- The client can tell apart any two results of `initialize`. -/
theorem initializeResult_toJson_injective : Function.Injective InitializeResult.toJson := by
  have hkeys : [str "capabilities", str "serverInfo"].Nodup := by decide
  refine injective_of_fields hkeys (fun _ => rfl) ?_
  rintro ⟨_, _⟩ ⟨_, _⟩ h
  simpa [InitializeResult.fields, map_put_inj ServerInfo.toJson_injective,
    ServerCapabilities.toJson_injective.eq_iff] using h

end CLSP
