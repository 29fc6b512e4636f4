import CLSP.DocumentStore.Theorems
import CLSP.Server.Serial
import CLSP.Server.Startup

/-!
# The document hooks

The documents change in the hooks of document notifications only, and these notifications are the
ones that have been accepted. A hook of didOpen is passed the item on the wire, one of didSave the
stored item, and one of didChange an item with a URI and a version and nothing else. Whether the
hooks are called does not depend on the kind of synchronization: `syncKind_` is written and never
read.
-/

namespace CLSP

open Transition

/-! ## Where the documents change -/

/-- The handler of `initialize` sets the encoding of the store. -/
lemma Server.documents_lifecycleEffect (s : Server) (capabilities : Server.Capabilities)
    (handler : RequestHandler) (l : Label) :
    (s.lifecycleEffect capabilities handler l).documents_.documents_
      = s.documents_.documents_ := by
  unfold Server.lifecycleEffect
  split
  · cases handler <;> rfl
  · exact s.documents_lifecycleReturns capabilities handler
  · rfl

section Steps

variable {cfg : Config} {ls : List Label} {es : List (Server × Label)} {s s' : Server} {l : Label}
  {call : NotificationCall} {hook : Hook}

lemma NotificationStep.documents_eq {documents documents' : DocumentStore} {pc : NotificationPc}
    {r : Progress NotificationPc} (h : NotificationStep call documents pc l documents' r)
    (hl : ∀ hook, l ≠ .hook call hook) : documents' = documents := by
  cases h with
  | hook => exact absurd rfl (hl _)
  | _ => rfl

/-- The other steps leave the documents. -/
lemma Step.documents_eq (h : Step cfg s l s') (hl : ∀ call hook, l ≠ .hook call hook) :
    s'.documents_.documents_ = s.documents_.documents_ := by
  cases h with
  | reader _ _ h =>
    cases h with
    | handler capabilities => exact s.documents_lifecycleEffect capabilities _ l
    | submit | stop => rw [Server.setPool_documents_]
    | _ => rfl
  | worker _ _ _ h =>
    cases h with
    | notification _ hstep | notificationFinishes _ hstep =>
      exact congrArg DocumentStore.documents_ (hstep.documents_eq (hl _))
    | _ => simp
  | sender _ h =>
    rcases h.frame with ⟨_, _, _, rfl⟩
    rfl

/-- A hook is called by the handler of a notification, with what the handler makes of the documents,
and is run on them. -/
lemma Step.hook_inv (h : Step cfg s (.hook call hook) s') :
    (∃ e, (s.pool e).Working (.notification call .running)) ∧
      call.handler.hook call.params s.documents_ = .ok (some hook) ∧
      s'.documents_ = hook.run s.documents_ := by
  cases h with
  | reader _ _ h =>
    cases h with
    | handler _ _ hstep | handlerFinishes _ hstep | handlerEscapes _ hstep => cases hstep
  | worker e _ _ h =>
    cases h with
    | notification hw hstep =>
      cases hstep with
      | hook hhook => exact ⟨⟨e, ThreadPool.working_of_getElem? hw⟩, hhook, rfl⟩
    | notificationFinishes _ hstep | notificationEscapes _ hstep => cases hstep
    | handler _ hstep | handlerFinishes _ hstep | handlerEscapes _ hstep => cases hstep
    | callbackFinishes _ hstep | callbackEscapes _ hstep => cases hstep
  | sender _ h => cases h

/-! ## What the handlers pass to the hooks -/

/-- The hook a handler calls. -/
inductive HookFrom (params : Json) (documents : DocumentStore) : NotificationHandler → Hook → Prop
  | didOpen {p : DidOpenParams} : DidOpenParams.fromJson params = .ok p →
      HookFrom params documents .didOpen (.opened p.textDocument)
  | didChange {p : DidChangeParams} : DidChangeParams.fromJson params = .ok p →
      HookFrom params documents .didChange
        (.changed { uri := p.textDocument.uri, languageId := [],
                    version := p.textDocument.version, text := [] } p.contentChanges)
  | didClose {p : DidCloseParams} : DidCloseParams.fromJson params = .ok p →
      HookFrom params documents .didClose (.closed p.uri)
  | didSave {p : DidSaveParams} {document : TextDocumentItem} :
      DidSaveParams.fromJson params = .ok p → documents.get p.uri = some document →
      HookFrom params documents .didSave (.saved document p.text)

lemma NotificationHandler.hook_inv {handler : NotificationHandler} {params : Json}
    {documents : DocumentStore} (h : handler.hook params documents = .ok (some hook)) :
    HookFrom params documents handler hook := by
  cases handler with
  | didOpen =>
    rcases Json.bind_eq_ok.mp h with ⟨p, hp, hhook⟩
    rw [← Option.some.inj (Except.ok.inj hhook)]
    exact .didOpen hp
  | didChange =>
    rcases Json.bind_eq_ok.mp h with ⟨p, hp, hhook⟩
    rw [← Option.some.inj (Except.ok.inj hhook)]
    exact .didChange hp
  | didClose =>
    rcases Json.bind_eq_ok.mp h with ⟨p, hp, hhook⟩
    rw [← Option.some.inj (Except.ok.inj hhook)]
    exact .didClose hp
  | didSave =>
    rcases Json.bind_eq_ok.mp h with ⟨p, hp, hsome⟩
    rcases Option.map_eq_some_iff.mp (Except.ok.inj hsome) with ⟨document, hget, hhook⟩
    rw [← hhook]
    exact .didSave hp hget
  | _ => exact absurd (Except.ok.inj h) (by simp)

/-! ## Items are stored under their own URI -/

lemma DocumentStore.get_congr {store store' : DocumentStore}
    (h : store.documents_ = store'.documents_) (uri : DocumentUri) :
    store.get uri = store'.get uri := by
  unfold DocumentStore.get
  rw [h]

/-- What is stored under a URI has that URI. -/
def DocumentStore.Keyed (store : DocumentStore) : Prop :=
  ∀ uri item, store.get uri = some item → item.uri = uri

lemma DocumentStore.Keyed.run {store : DocumentStore} (h : store.Keyed) (hook : Hook) :
    (hook.run store).Keyed := by
  intro uri item hget
  cases hook with
  | opened document =>
    rw [Hook.run, get_open] at hget
    split at hget
    · next huri =>
      rw [← Option.some.inj hget, huri]
    · exact h uri item hget
  | changed document changes =>
    rw [Hook.run, get_applyChange] at hget
    split at hget
    · rcases Option.map_eq_some_iff.mp hget with ⟨old, hold, rfl⟩
      exact (afterChange_eq _ _ _ _).1.trans (h uri old hold)
    · exact h uri item hget
  | closed uri' =>
    rw [Hook.run, get_close] at hget
    split at hget
    · cases hget
    · exact h uri item hget
  | saved => exact h uri item hget

lemma Runs.keyed (h : Runs cfg ls s) : s.documents_.Keyed := by
  apply h.invariant (I := fun s => s.documents_.Keyed)
  · intro uri item hget
    cases hget
  · intro t l u ht hstep
    by_cases hl : ∀ call hook, l ≠ .hook call hook
    · intro uri item hget
      rw [DocumentStore.get_congr (hstep.documents_eq hl)] at hget
      exact ht uri item hget
    · push Not at hl
      rcases hl with ⟨call, hook, rfl⟩
      rw [hstep.hook_inv.2.2]
      exact ht.run hook

/-! ## What the hooks are passed -/

/-- The item a hook is passed. -/
def Hook.document? : Hook → Option TextDocumentItem
  | .opened document => some document
  | .changed document _ => some document
  | .closed _ => none
  | .saved document _ => some document

/-- The store holds a document with the URI, the language and the text of an item. -/
def DocumentStore.Holds (store : DocumentStore) (item : TextDocumentItem) : Prop :=
  ∃ stored, store.get item.uri = some stored ∧ stored.uri = item.uri ∧
    stored.languageId = item.languageId ∧ stored.text = item.text

/-- What is expected of the hooks that are called in a run: the item of an open document is the one
the store holds, before or after. -/
def HooksSeeDocuments (cfg : Config) (ls : List Label) : Prop :=
  ∀ ls₁ ls₂ call hook t t', ls = ls₁ ++ .hook call hook :: ls₂ → Runs cfg ls₁ t →
    Step cfg t (.hook call hook) t' → ∀ item, hook.document? = some item →
    (t.documents_.get item.uri).isSome ∨ (t'.documents_.get item.uri).isSome →
    t.documents_.Holds item ∨ t'.documents_.Holds item

/-- The documents that are changed in a run have no language and no text, before or after. -/
def ChangesEmpty (cfg : Config) (ls : List Label) : Prop :=
  ∀ ls₁ ls₂ call document changes t t', ls = ls₁ ++ .hook call (.changed document changes) :: ls₂ →
    Runs cfg ls₁ t → Step cfg t (.hook call (.changed document changes)) t' →
    ∀ stored, t.documents_.get document.uri = some stored → stored.languageId = [] ∧
      (stored.text = [] ∨ (applyEvents t.documents_.encoding_ stored.text changes).1 = [])

/-- The stored item of a document after its change. -/
lemma get_run_changed {store : DocumentStore} {document stored : TextDocumentItem}
    (h : store.get document.uri = some stored) (changes : List TextDocumentChangeEvent) :
    ((Hook.changed document changes).run store).get document.uri
      = some (afterChange store.encoding_ document.version changes stored) := by
  rw [Hook.run, get_applyChange]
  exact (if_pos rfl).trans (congrArg _ h)

/-- The item of a didChange is that of the store if both are empty. -/
lemma holds_changed_iff {store : DocumentStore} (hkeyed : store.Keyed)
    {document stored : TextDocumentItem} {changes : List TextDocumentChangeEvent}
    (hlanguage : document.languageId = []) (htext : document.text = [])
    (hstored : store.get document.uri = some stored) :
    store.Holds document ∨ ((Hook.changed document changes).run store).Holds document ↔
      stored.languageId = [] ∧
        (stored.text = [] ∨ (applyEvents store.encoding_ stored.text changes).1 = []) := by
  have huri := hkeyed _ _ hstored
  have hafter := afterChange_eq store.encoding_ document.version changes stored
  unfold DocumentStore.Holds
  rw [get_run_changed hstored, hstored, hlanguage, htext]
  simp only [Option.some.injEq, exists_eq_left', hafter, huri, true_and]
  tauto

/-- **Hooks see the documents** of the store exactly if every open document that is changed has no
language, and no text before or after. -/
theorem hooks_see_documents_iff (cfg : Config) (ls : List Label) :
    HooksSeeDocuments cfg ls ↔ ChangesEmpty cfg ls := by
  constructor
  · intro hsees ls₁ ls₂ call document changes t t' hls hrun hstep stored hstored
    rcases hstep.hook_inv with ⟨-, hhook, hrun'⟩
    have hholds := hsees ls₁ ls₂ call _ t t' hls hrun hstep document rfl
      (Or.inl (by rw [hstored]; rfl))
    rw [hrun'] at hholds
    generalize call.handler = handler at hhook
    cases NotificationHandler.hook_inv hhook with
    | didChange => exact (holds_changed_iff (Runs.keyed hrun) rfl rfl hstored).mp hholds
  · intro hempty ls₁ ls₂ call hook t t' hls hrun hstep item hitem hopen
    rcases hstep.hook_inv with ⟨-, hhook, hrun'⟩
    rw [hrun'] at hopen ⊢
    generalize call.handler = handler at hhook
    cases NotificationHandler.hook_inv hhook with
    | @didOpen p hp =>
      cases hitem
      exact Or.inr ⟨p.textDocument, (get_open _ _ _).trans (if_pos rfl), rfl, rfl, rfl⟩
    | @didChange p hp =>
      cases hitem
      -- a change does not open a document
      have hstored : ∃ stored, t.documents_.get p.textDocument.uri = some stored := by
        apply Option.isSome_iff_exists.mp
        rcases hopen with hopen | hopen
        · exact hopen
        · rw [Hook.run, get_applyChange, if_pos rfl, Option.isSome_map] at hopen
          exact hopen
      rcases hstored with ⟨stored, hstored⟩
      exact (holds_changed_iff (Runs.keyed hrun) rfl rfl hstored).mpr
        (hempty ls₁ ls₂ call _ _ t t' hls hrun hstep stored hstored)
    | didClose => cases hitem
    | @didSave p document hp hget =>
      cases hitem
      have huri := Runs.keyed hrun _ _ hget
      exact Or.inl ⟨item, by rw [huri, hget], rfl, rfl, rfl⟩

/-! ## Which notifications come to a hook -/

/-- The handler of a notification calls a hook when no document is open. -/
def CallsHook (cfg : Config) (notif : ParsedNotification) : Prop :=
  ∃ handler hook, cfg.notificationHandler notif.method = some handler ∧
    handler.hook notif.params {} = .ok (some hook)

/-- No document is ever open and no hook is called. -/
structure DocumentsOff (es : List (Server × Label)) (s : Server) : Prop where
  empty : ∀ t l, (t, l) ∈ es → t.documents_.documents_ = ∅
  last : s.documents_.documents_ = ∅
  noHook : ∀ call hook, .hook call hook ∉ es.map Prod.snd

/-- A handler that calls a hook is a built-in one of a document notification. -/
lemma HookFrom.isSyncNotification {params : Json} {documents : DocumentStore}
    {handler : NotificationHandler} (h : HookFrom params documents handler hook) {method : Bytes}
    (hhandler : cfg.notificationHandler method = some handler) :
    isSyncNotification method = true := by
  unfold Config.notificationHandler at hhandler
  split_ifs at hhandler with huser hinit hexit hcancel hopen hchange hclose hsave
  all_goals cases hhandler
  · cases h
  · cases h
  · cases h
  · cases h
  · rw [hopen]
    decide
  · rw [hchange]
    decide
  · rw [hclose]
    decide
  · rw [hsave]
    decide

/-- Without documents it calls the hook that it calls on the empty store. -/
lemma HookFrom.of_empty {params : Json} {documents : DocumentStore}
    {handler : NotificationHandler} (h : HookFrom params documents handler hook)
    (hempty : documents.documents_ = ∅) : handler.hook params {} = .ok (some hook) := by
  cases h with
  | didOpen hp | didChange hp | didClose hp =>
    simp only [NotificationHandler.hook, hp]
    rfl
  | didSave hp hget =>
    unfold DocumentStore.get at hget
    rw [hempty] at hget
    cases hget

lemma mem_inTurn_iff {notifs : List (ℕ × ParsedNotification)} {serial : ℕ}
    {notif : ParsedNotification} :
    .ends serial notif ∈ inTurn notifs ↔ (serial, notif) ∈ notifs := by
  simp [inTurn]

/-- A notification whose hook is called has been accepted. -/
lemma RecordedRuns.accepted (h : RecordedRuns cfg es s) (hstep : Step cfg s (.hook call hook) s') :
    (call.serial, call.notif) ∈ documentNotifications es ∧
      cfg.notificationHandler call.method = some call.handler := by
  have hrun : Runs cfg (es.map Prod.snd) s := Run.unrecord h
  rcases hstep.hook_inv with ⟨⟨e, hwork⟩, hhook, -⟩
  have hregistered : cfg.notificationHandler call.method = some call.handler :=
    Runs.registered hrun (Or.inr (Or.inr ⟨_, hwork, rfl⟩))
  have hinv := Runs.in_order hrun
  have hsync := (NotificationHandler.hook_inv hhook).isSyncNotification hregistered
  have he := (hinv.routed.working e call .running hwork).mp hsync
  subst he
  refine ⟨?_, hregistered⟩
  -- its end is still to be shown
  rcases RecordedRuns.execution h with ⟨rest, hrest, hlive⟩
  apply mem_inTurn_iff.mp
  rw [hrest, hlive hstep.live]
  apply List.mem_append_right
  exact List.mem_append_left _
    (ThreadPool.mem_remaining_of_working hwork (by simp [Running.execution]))

/-- Without a notification that comes to a hook nothing is opened. -/
lemma RecordedRuns.documentsOff (h : RecordedRuns cfg es s)
    (hnone : ∀ notif ∈ documentNotifications es, ¬ CallsHook cfg notif.2) : DocumentsOff es s := by
  induction h with
  | nil => exact ⟨by simp, rfl, by simp⟩
  | @snoc es t u e hrun hstep ih =>
    have hbefore : DocumentsOff es t := by
      apply ih
      intro notif hnotif
      apply hnone
      rw [documentNotifications_concat]
      exact List.mem_append_left _ hnotif
    cases hstep with
    | @intro l _ hstep =>
      have hl : ∀ call hook, l ≠ .hook call hook := by
        intro call hook hl
        subst hl
        rcases RecordedRuns.accepted hrun hstep with ⟨hmem, hregistered⟩
        have hhook := NotificationHandler.hook_inv hstep.hook_inv.2.1
        apply hnone (call.serial, call.notif)
        · rw [documentNotifications_concat]
          exact List.mem_append_left _ hmem
        · exact ⟨call.handler, hook, hregistered, hhook.of_empty hbefore.last⟩
      refine ⟨?_, (hstep.documents_eq hl).trans hbefore.last, ?_⟩
      · intro t' l' hmem
        rcases List.mem_append.mp hmem with hmem | hmem
        · exact hbefore.empty t' l' hmem
        · cases List.mem_singleton.mp hmem
          exact hbefore.last
      · intro call hook hmem
        rw [List.map_append] at hmem
        rcases List.mem_append.mp hmem with hmem | hmem
        · exact hbefore.noHook call hook hmem
        · exact hl call hook (List.mem_singleton.mp hmem).symm

/-- When `run` has returned, the notifications that come to a hook have come to it. -/
lemma RecordedRuns.hook_of_returned (h : RecordedRuns cfg es s) (hr : s.reader = .returned)
    {notif : ℕ × ParsedNotification} (hnotif : notif ∈ documentNotifications es)
    (hcalls : CallsHook cfg notif.2) : ∃ call hook, .hook call hook ∈ es.map Prod.snd := by
  have hrun : Runs cfg (es.map Prod.snd) s := Run.unrecord h
  -- its end has been shown, since nothing is left to be shown
  have hends : .ends notif.1 notif.2 ∈ documentInvocations (es.map Prod.snd) := by
    rcases RecordedRuns.execution h with ⟨rest, hrest, hlive⟩
    rw [hlive (Runs.live_of_returned hrun hr), Runs.execution_of_returned hrun hr,
      List.append_nil] at hrest
    rw [← hrest]
    exact mem_inTurn_iff.mpr hnotif
  rcases List.mem_filterMap.mp hends with ⟨l, hl, hshown⟩
  have hended : ∃ call outcome, l = .notificationEnded call outcome ∧
      isSyncNotification call.method = true ∧ call.notif = notif.2 := by
    cases l with
    | notificationEnded call outcome =>
      by_cases hsync : isSyncNotification call.method = true
      · have heq : some (DocumentInvocation.ends call.serial call.notif)
            = some (.ends notif.1 notif.2) := (if_pos hsync).symm.trans hshown
        exact ⟨call, outcome, rfl, hsync, (DocumentInvocation.ends.inj (Option.some.inj heq)).2⟩
      · exact absurd ((if_neg hsync).symm.trans hshown) (by simp)
    | notificationStarted call =>
      by_cases hsync : isSyncNotification call.method = true
      · exact absurd ((if_pos hsync).symm.trans hshown) (by simp)
      · exact absurd ((if_neg hsync).symm.trans hshown) (by simp)
    | _ => exact absurd hshown (by simp [Label.documentInvocation?])
  rcases hended with ⟨call, outcome, rfl, hsync, heq⟩
  rcases hcalls with ⟨handler, hook, hhandler, hhook⟩
  -- by the handler that is registered for it
  have hregistered : cfg.notificationHandler call.method = some call.handler := by
    rcases List.append_of_mem hl with ⟨ls₁, ls₂, hls⟩
    rw [hls] at hrun
    rcases hrun.split_at with ⟨t, t', ht, hstep, -⟩
    rcases hstep.worker_of_notificationEnded (Runs.in_order ht).routed hsync with ⟨e, w, hworker⟩
    exact Runs.registered ht (hworker.task? rfl)
  rw [← heq] at hhandler hhook
  have hsame : call.handler = handler := Option.some.inj (hregistered.symm.trans hhandler)
  rw [← hsame] at hhook
  have hedits : call.handler.edits = true := by
    generalize call.handler = handler at hhook
    cases NotificationHandler.hook_inv hhook with
    | didOpen | didChange | didClose => rfl
    | didSave _ hget => cases hget
  exact ⟨call, hook, (Runs.hooked hrun).ended call outcome hl hsync hedits hook hhook⟩

/-- **Documents are not synchronized** if, and in the runs that have returned only if, the client
sends no notification that comes to a hook. -/
theorem documents_off_iff (cfg : Config) (es : List (Server × Label)) (s : Server)
    (h : RecordedRuns cfg es s) :
    ((∀ notif ∈ documentNotifications es, ¬ CallsHook cfg notif.2) → DocumentsOff es s) ∧
      (s.reader = .returned → DocumentsOff es s →
        ∀ notif ∈ documentNotifications es, ¬ CallsHook cfg notif.2) := by
  refine ⟨RecordedRuns.documentsOff h, ?_⟩
  intro hr hoff notif hnotif hcalls
  rcases RecordedRuns.hook_of_returned h hr hnotif hcalls with ⟨call, hook, hmem⟩
  exact hoff.noHook call hook hmem

end Steps

/-! ## Two sessions -/

namespace Session

def didChange : Frame :=
  .notification (str "textDocument/didChange") (.ofMembers [
    (str "textDocument", .ofMembers [(str "uri", .string (str "file:///a")),
      (str "version", .integer 2)]),
    (str "contentChanges", .array [.ofMembers [(str "text", .string (str "int y;"))]])])

def didSave : Frame :=
  .notification (str "textDocument/didSave") (.ofMembers [(str "textDocument",
    .ofMembers [(str "uri", .string (str "file:///a"))])])

/-- A client that opens a document, changes it and saves it. -/
def editing : Config :=
  { config with nl := .ofFrames [initializeRequest, didOpen, didChange, didSave] }

def openNothing : Frame := .notification (str "textDocument/didOpen") .null

/-- A server whose user handles changes without a hook. -/
def changing : Config :=
  { config with
    nl := .ofFrames [initializeRequest, openNothing, didChange, didSave]
    userNotifications := [str "textDocument/didChange"] }

end Session

/-- The hook of a didChange gets no text of the document that has been opened. -/
theorem session_sees_no_text :
    ¬ ∀ ls s, Runs Session.editing ls s → HooksSeeDocuments Session.editing ls := by
  have hrun : Reaches (Step Session.editing) (Server.start Session.editing) fun _ t =>
      ∃ call document changes t',
        Step Session.editing t (.hook call (.changed document changes)) t' ∧
        document.languageId = [] ∧
        (∃ stored, t.documents_.get document.uri = some stored ∧ stored.languageId = str "c") ∧
        ∃ stored, t'.documents_.get document.uri = some stored ∧ stored.languageId = str "c" := by
    apply Reaches.step
      (.reader rfl rfl (.read Session.initializeRequest.json.print rfl (by decide) rfl))
    apply Reaches.step (.reader rfl rfl (.handler ⟨none, none⟩ rfl (.start rfl)))
    apply Reaches.step (.reader rfl rfl (.handler ⟨none, none⟩ rfl (.returns .null)))
    apply Reaches.step (.reader rfl rfl (.handlerFinishes rfl (.send rfl)))
    apply Reaches.step (.reader rfl rfl (.read Session.didOpen.json.print rfl (by decide) rfl))
    apply Reaches.step (.reader rfl rfl (.submit rfl))
    apply Reaches.step (.worker .sync 0 rfl (.take rfl rfl))
    apply Reaches.step (.worker .sync 0 rfl (.notification rfl .start))
    apply Reaches.step (.worker .sync 0 rfl (.notification rfl (.hook rfl)))
    apply Reaches.step (.worker .sync 0 rfl (.notificationFinishes rfl .returns))
    apply Reaches.step (.reader rfl rfl (.read Session.didChange.json.print rfl (by decide) rfl))
    apply Reaches.step (.reader rfl rfl (.submit rfl))
    apply Reaches.step (.worker .sync 0 rfl (.take rfl rfl))
    apply Reaches.step (.worker .sync 0 rfl (.notification rfl .start))
    exact Reaches.here ⟨_, _, _, _, .worker .sync 0 rfl (.notification rfl (.hook rfl)), rfl,
      ⟨_, rfl, rfl⟩, ⟨_, rfl, rfl⟩⟩
  rcases hrun with ⟨ls, t, hrun, call, document, changes, t', hstep, hlanguage, hbefore, hafter⟩
  rcases hbefore with ⟨stored, hstored, hc⟩
  rcases hafter with ⟨stored', hstored', hc'⟩
  intro hsees
  have hholds := hsees _ _ (hrun.snoc hstep) ls [] call _ t t' rfl hrun hstep document rfl
    (Or.inl (by rw [hstored]; rfl))
  -- neither of the two has the empty language of the item
  rcases hholds with ⟨item, hitem, -, hempty, -⟩ | ⟨item, hitem, -, hempty, -⟩
  · rw [hstored] at hitem
    rw [← Option.some.inj hitem, hc, hlanguage] at hempty
    exact absurd hempty (by decide)
  · rw [hstored'] at hitem
    rw [← Option.some.inj hitem, hc', hlanguage] at hempty
    exact absurd hempty (by decide)

/-- A didOpen that is refused, a didChange that goes to a handler of the user, and the didSave of a
document that is not open come to no hook. -/
theorem documents_off_session :
    ∃ es s, RecordedRuns Session.changing es s ∧ (documentNotifications es).length = 3 ∧
      DocumentsOff es s := by
  have hrun : Reaches (Recorded (Step Session.changing)) (Server.start Session.changing)
      fun es _ => ∃ opens changes saves,
        documentNotifications es = [(1, opens), (2, changes), (3, saves)] ∧
        ∀ notif ∈ [opens, changes, saves], ¬ CallsHook Session.changing notif := by
    apply Reaches.step
      (.intro (.reader rfl rfl (.read Session.initializeRequest.json.print rfl (by decide) rfl)))
    apply Reaches.step (.intro (.reader rfl rfl (.handler ⟨none, none⟩ rfl (.start rfl))))
    apply Reaches.step (.intro (.reader rfl rfl (.handler ⟨none, none⟩ rfl (.returns .null))))
    apply Reaches.step (.intro (.reader rfl rfl (.handlerFinishes rfl (.send rfl))))
    apply Reaches.step
      (.intro (.reader rfl rfl (.read Session.openNothing.json.print rfl (by decide) rfl)))
    apply Reaches.step (.intro (.reader rfl rfl (.submit rfl)))
    apply Reaches.step (.intro (.worker .sync 0 rfl (.take rfl rfl)))
    apply Reaches.step (.intro (.worker .sync 0 rfl (.notification rfl .start)))
    apply Reaches.step (.intro (.worker .sync 0 rfl
      (.notificationFinishes rfl (.decodeThrows (e := .std (str "no document")) rfl rfl))))
    apply Reaches.step
      (.intro (.reader rfl rfl (.read Session.didChange.json.print rfl (by decide) rfl)))
    apply Reaches.step (.intro (.reader rfl rfl (.submit rfl)))
    apply Reaches.step (.intro (.worker .sync 0 rfl (.take rfl rfl)))
    apply Reaches.step (.intro (.worker .sync 0 rfl (.notification rfl .start)))
    apply Reaches.step (.intro (.worker .sync 0 rfl (.notificationFinishes rfl .returns)))
    apply Reaches.step
      (.intro (.reader rfl rfl (.read Session.didSave.json.print rfl (by decide) rfl)))
    refine Reaches.here ⟨_, _, _, rfl, ?_⟩
    intro notif hmem hcalls
    rcases hcalls with ⟨handler, hook, hhandler, hhook⟩
    simp only [List.mem_cons, List.not_mem_nil, or_false] at hmem
    rcases hmem with rfl | rfl | rfl <;> cases hhandler <;> cases hhook
  rcases hrun with ⟨es, s, hrun, opens, changes, saves, hnotifs, hnone⟩
  refine ⟨es, s, hrun, by rw [hnotifs]; rfl, (documents_off_iff Session.changing es s hrun).1 ?_⟩
  intro notif hmem
  rw [hnotifs] at hmem
  exact hnone notif.2 (List.mem_map_of_mem (f := Prod.snd) hmem)

/-- A server that has not asked for documents opens the one its client sends. -/
theorem session_opens_document :
    ¬ ∀ es s, RecordedRuns Session.editing es s → s.syncKind_ = .None → DocumentsOff es s := by
  have hrun : Reaches (Recorded (Step Session.editing)) (Server.start Session.editing) fun _ s =>
      s.syncKind_ = .None ∧ (s.documents_.get (str "file:///a")).isSome := by
    apply Reaches.step
      (.intro (.reader rfl rfl (.read Session.initializeRequest.json.print rfl (by decide) rfl)))
    apply Reaches.step (.intro (.reader rfl rfl (.handler ⟨none, none⟩ rfl (.start rfl))))
    apply Reaches.step (.intro (.reader rfl rfl (.handler ⟨none, none⟩ rfl (.returns .null))))
    apply Reaches.step (.intro (.reader rfl rfl (.handlerFinishes rfl (.send rfl))))
    apply Reaches.step
      (.intro (.reader rfl rfl (.read Session.didOpen.json.print rfl (by decide) rfl)))
    apply Reaches.step (.intro (.reader rfl rfl (.submit rfl)))
    apply Reaches.step (.intro (.worker .sync 0 rfl (.take rfl rfl)))
    apply Reaches.step (.intro (.worker .sync 0 rfl (.notification rfl .start)))
    apply Reaches.step (.intro (.worker .sync 0 rfl (.notification rfl (.hook rfl))))
    exact Reaches.here ⟨rfl, rfl⟩
  rcases hrun with ⟨es, s, hrun, hkind, hopen⟩
  intro hoff
  have hempty := (hoff es s hrun hkind).last
  unfold DocumentStore.get at hopen
  rw [hempty] at hopen
  exact absurd hopen (by decide)

end CLSP
