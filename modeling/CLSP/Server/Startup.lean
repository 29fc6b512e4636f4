import CLSP.DocumentStore.Theorems
import CLSP.Server.Lifecycle
import CLSP.Server.Tasks

/-!
# Nothing runs before `initialize`

A run is before the handler of `initialize` starts, in that handler, or past it (`Startup`). Before
and in the handler the pools only have response callbacks and no document is open, so that the
position encoding, which the handler writes when it returns, is the one of every document of the
run.
-/

namespace CLSP

open Transition (Reaches)

/-! ## What a run shows of `initialize` -/

/-- The handler of `initialize` starts. -/
def Label.initializes : Label → Bool
  | .handlerStarted call => call.handler = .initializeRequest
  | _ => false

/-- The handler of `initialize` returns, which is where it writes the encoding. -/
def Label.setsEncoding : Label → Bool
  | .handlerEnded call (.ok _) => call.handler = .initializeRequest
  | _ => false

def initializations (ls : List Label) : ℕ :=
  ls.countP Label.initializes

def encodingWrites (ls : List Label) : ℕ :=
  ls.countP Label.setsEncoding

def Task.isCallback : Task → Bool
  | .callback _ _ _ => true
  | _ => false

/-- No document is open, nothing has been passed to the sync executor, and the pools have nothing
but callbacks. -/
structure Untouched (ls : List Label) (s : Server) : Prop where
  queued : ∀ task, .submitted .sync task ∉ ls
  tasks : ∀ e task, s.HasTask e task → e = .worker ∧ task.isCallback = true
  documents : s.documents_.documents_ = ∅

/-- Before the handler of `initialize` starts, in it, and past it. -/
inductive Startup (ls : List Label) (s : Server) : Prop
  | before : initializations ls = 0 → encodingWrites ls = 0 → Untouched ls s →
      (s.state_ = .Uninitialized ∨ s.state_ = .Exited) →
      (∀ call pc, s.reader = .inline call pc →
        pc = .checking ∧ call.handler = .initializeRequest) →
      (∀ call, s.reader ≠ .notifying call) → Startup ls s
  | during {call : RequestCall} {pc : HandlerPc} : initializations ls = 1 →
      encodingWrites ls ≤ 1 → (pc = .running → encodingWrites ls = 0) → Untouched ls s →
      s.state_ = .Initializing → s.reader = .inline call pc → pc ≠ .checking →
      call.handler = .initializeRequest → Startup ls s
  | after : initializations ls = 1 → encodingWrites ls ≤ 1 → s.state_ ≠ .Uninitialized →
      (∀ call pc, s.reader = .inline call pc → call.handler ≠ .initializeRequest) → Startup ls s

/-- The handler of `initialize` does not touch the documents. -/
lemma Server.documents_lifecycleReturns (s : Server) (capabilities : Server.Capabilities)
    (handler : RequestHandler) :
    (s.lifecycleReturns capabilities handler).documents_.documents_ = s.documents_.documents_ := by
  unfold Server.lifecycleReturns
  cases handler with
  | initializeRequest =>
    dsimp only
    split <;> rfl
  | _ => rfl

/-! ## Dispatch -/

lemma handleRequest_uninitialized (cfg : Config) (serial token : ℕ) {req : ParsedRequest}
    (hmethod : req.method ≠ str "initialize") :
    handleRequest cfg .Uninitialized serial token req =
      .sending (.error req.id .ServerNotInitialized (str "Server not initialized")) := by
  rw [handleRequest, if_pos ⟨rfl, hmethod⟩]

lemma handleRequest_begin {cfg : Config} (hkept : cfg.LifecycleKept) (serial token : ℕ)
    {req : ParsedRequest} (hmethod : req.method = str "initialize") :
    handleRequest cfg .Uninitialized serial token req =
      .inline (req.call serial .initializeRequest token) .checking := by
  rw [handleRequest, if_neg (fun h => h.2 hmethod), if_neg (by simp), if_neg (by simp), hmethod,
    hkept.initializeRequest]
  rfl

lemma handleNotification_uninitialized (cfg : Config) (serial : ℕ) {notif : ParsedNotification}
    (hmethod : notif.method ≠ str "exit") :
    handleNotification cfg .Uninitialized serial notif = (.Uninitialized, .loop) := by
  unfold handleNotification
  rw [if_neg hmethod, if_pos rfl]

/-- Where the read thread can go from an uninitialized server. -/
inductive EarlyPc : ReaderPc → Prop
  | loop : EarlyPc .loop
  | sending (frame : Frame) : EarlyPc (.sending frame)
  | starting {call : RequestCall} : call.handler = .initializeRequest →
      EarlyPc (.inline call .checking)
  | exiting : EarlyPc .exiting
  | responding (resp : ParsedResponse) (id : Int32) : EarlyPc (.responding resp id)

lemma EarlyPc.task? {pc : ReaderPc} (h : EarlyPc pc) : pc.task? = none := by
  cases h <;> rfl

lemma dispatch_uninitialized {cfg : Config} (hkept : cfg.LifecycleKept) (serial token : ℕ)
    (msg : ParsedMessage) :
    ((dispatch cfg .Uninitialized serial token msg).1 = .Uninitialized ∨
        (dispatch cfg .Uninitialized serial token msg).1 = .Exited) ∧
      EarlyPc (dispatch cfg .Uninitialized serial token msg).2 := by
  rcases msg with req | notif | err | resp
  · refine ⟨Or.inl rfl, ?_⟩
    show EarlyPc (handleRequest cfg .Uninitialized serial token req)
    by_cases hmethod : req.method = str "initialize"
    · rw [handleRequest_begin hkept serial token hmethod]
      exact .starting rfl
    · rw [handleRequest_uninitialized cfg serial token hmethod]
      exact .sending _
  · show (_ ∨ _) ∧ EarlyPc (handleNotification cfg .Uninitialized serial notif).2
    by_cases hmethod : notif.method = str "exit"
    · have heq : handleNotification cfg .Uninitialized serial notif = (.Exited, .exiting) :=
        if_pos hmethod
      rw [heq]
      exact ⟨Or.inr (congrArg Prod.fst heq), .exiting⟩
    · have heq := handleNotification_uninitialized cfg serial hmethod
      rw [heq]
      exact ⟨Or.inl (congrArg Prod.fst heq), .loop⟩
  · exact ⟨Or.inl rfl, .sending _⟩
  · refine ⟨Or.inl rfl, ?_⟩
    show EarlyPc (handleResponse resp)
    unfold handleResponse
    split
    · exact .responding _ _
    · exact .loop

/-- The pools do not get lifecycle requests. -/
lemma Outcome.user {cfg : Config} {state : ServerState} {serial token : ℕ}
    {msg : ParsedMessage} {next : ServerState × ReaderPc}
    (h : Outcome cfg state serial token msg next) {e : Executor} {call : RequestCall}
    (hnext : next.2.task? = some (e, .request call)) : call.handler = .user := by
  cases h with
  | request h =>
    cases h with
    | @pooled handler haccepts hhandler hlife =>
      rcases Prod.mk.inj (Option.some.inj hnext) with ⟨-, hcall⟩
      rw [← Task.request.inj hcall]
      show handler = .user
      cases handler with
      | user => rfl
      | initializeRequest =>
        rw [method_of_initializeRequest hhandler] at hlife
        exact absurd hlife (by decide)
      | shutdownRequest =>
        rw [method_of_shutdownRequest hhandler] at hlife
        exact absurd hlife (by decide)
    | _ => exact absurd hnext (by simp [ReaderPc.task?])
  | notification h =>
    cases h with
    | sync | pooled =>
      rcases Prod.mk.inj (Option.some.inj hnext) with ⟨-, hcall⟩
      exact absurd hcall (by simp)
    | _ => exact absurd hnext (by simp [ReaderPc.task?])
  | response h => cases h <;> exact absurd hnext (by simp [ReaderPc.task?])
  | error => exact absurd hnext (by simp [ReaderPc.task?])

section Steps

variable {cfg : Config} {ls : List Label} {s s' : Server} {l : Label}

/-- The handler of a request on a pool is a user's. -/
lemma Runs.user (h : Runs cfg ls s) {e : Executor} {call : RequestCall}
    (htask : s.HasTask e (.request call)) : call.handler = .user := by
  refine Runs.tasks (P := fun _ task => ∀ call, task = .request call → call.handler = .user) h ?_
    htask call rfl
  intro t l u e task hstep hnew call hcall
  subst hcall
  cases hnew with
  | read hdispatch => exact (dispatch_outcome _ _ _ _ _).user hdispatch

lemma Label.task?_of_initializes (h : l.initializes = true) :
    ∃ call, l = .handlerStarted call ∧ call.handler = .initializeRequest := by
  cases l with
  | handlerStarted call => exact ⟨call, rfl, of_decide_eq_true h⟩
  | _ => exact absurd h (by simp [Label.initializes])

lemma Label.task?_of_setsEncoding (h : l.setsEncoding = true) :
    ∃ call value, l = .handlerEnded call (.ok value) ∧ call.handler = .initializeRequest := by
  cases l with
  | handlerEnded call outcome =>
    cases outcome with
    | ok value => exact ⟨call, value, rfl, of_decide_eq_true h⟩
    | error e => exact absurd h (by simp [Label.setsEncoding])
  | _ => exact absurd h (by simp [Label.setsEncoding])

/-- Steps that are about no task or another handler count nothing. -/
lemma Label.counts_eq_false (h : ∀ call, l.task? = some (.request call) →
    call.handler ≠ .initializeRequest) : l.initializes = false ∧ l.setsEncoding = false := by
  constructor
  · by_contra hne
    rcases Label.task?_of_initializes (by simpa using hne) with ⟨call, rfl, hinit⟩
    exact h call rfl hinit
  · by_contra hne
    rcases Label.task?_of_setsEncoding (by simpa using hne) with ⟨call, value, rfl, hinit⟩
    exact h call rfl hinit

lemma initializations_concat (ls : List Label) (l : Label) :
    initializations (ls ++ [l]) = initializations ls + if l.initializes then 1 else 0 := by
  simp [initializations, List.countP_append, List.countP_singleton]

lemma encodingWrites_concat (ls : List Label) (l : Label) :
    encodingWrites (ls ++ [l]) = encodingWrites ls + if l.setsEncoding then 1 else 0 := by
  simp [encodingWrites, List.countP_append, List.countP_singleton]

/-! ## Before documents are touched -/

/-- Workers that only have callbacks call no handler, and touch no document. -/
lemma Untouched.worker {e : Executor} {w : ℕ} (hs : Untouched ls s)
    (h : WorkerStep cfg e w s l s') : Untouched (ls ++ [l]) s' ∧ l.task? = none := by
  have hnotification : ∀ call, ¬ s.HasTask e (.notification call) := fun call htask =>
    absurd (hs.tasks e _ htask).2 (by simp [Task.isCallback])
  refine ⟨⟨?_, ?_, ?_⟩, ?_⟩
  · intro task hmem
    rcases List.mem_append.mp hmem with hmem | hmem
    · exact hs.queued task hmem
    · have hl := h.label.1
      rw [← List.mem_singleton.mp hmem] at hl
      exact absurd hl (by simp [Label.ofReader])
  · exact fun e' task htask => hs.tasks e' task (h.hasTask htask)
  · rcases h.documents with hdocuments | ⟨call, htask⟩
    · rw [hdocuments]
      exact hs.documents
    · exact absurd htask (hnotification call)
  · cases hl : l.task? with
    | none => rfl
    | some task =>
      have hcallback := (hs.tasks e task (h.task? hl)).2
      cases l with
      | handlerStarted | polled | handlerEnded | notificationStarted | hook | notificationEnded =>
        rw [← Option.some.inj hl] at hcallback
        exact absurd hcallback (by simp [Task.isCallback])
      | _ => exact absurd hl (by simp [Label.task?])

/-- A step of another thread that leaves the documents. -/
lemma Untouched.congr (hs : Untouched ls s) (h : Step cfg s l s')
    (hdocuments : s'.documents_.documents_ = s.documents_.documents_)
    (hnew : ∀ e task, NewTask cfg s l e task → e = .worker ∧ task.isCallback = true) :
    Untouched (ls ++ [l]) s' := by
  refine ⟨?_, ?_, hdocuments.trans hs.documents⟩
  · intro task hmem
    rcases List.mem_append.mp hmem with hmem | hmem
    · exact hs.queued task hmem
    · -- the read thread has that task already
      have hl := List.mem_singleton.mp hmem
      subst hl
      cases (h.of_reader rfl).2 with
      | submit hr =>
        have htask : s.HasTask .sync task := Or.inl (by rw [hr]; rfl)
        exact absurd (hs.tasks _ _ htask).1 (by simp)
      | handler _ _ hstep | handlerFinishes _ hstep | handlerEscapes _ hstep => cases hstep
  · intro e task htask
    rcases h.hasTask htask with hold | hfresh
    · exact hs.tasks e task hold
    · exact hnew e task hfresh

/-! ## The phases -/

/-- A step that leaves the read thread and the state where they are leaves the phase. -/
lemma Startup.same (hs : Startup ls s) (hl : l.initializes = false ∧ l.setsEncoding = false)
    (hreader : s'.reader = s.reader) (hstate : s'.state_ = s.state_)
    (huntouched : Untouched ls s → Untouched (ls ++ [l]) s') : Startup (ls ++ [l]) s' := by
  have hstarts : initializations (ls ++ [l]) = initializations ls := by
    rw [initializations_concat, hl.1]
    rfl
  have hwrites : encodingWrites (ls ++ [l]) = encodingWrites ls := by
    rw [encodingWrites_concat, hl.2]
    rfl
  cases hs with
  | before hnone hunwritten hs hearly hinline hnotifying =>
    exact .before (hstarts.trans hnone) (hwrites.trans hunwritten) (huntouched hs)
      (hstate ▸ hearly) (hreader ▸ hinline) (hreader ▸ hnotifying)
  | during hone hle hrunning hs hinit hr hpc hcall =>
    exact .during (hstarts.trans hone) (hwrites ▸ hle) (hwrites ▸ hrunning) (huntouched hs)
      (hstate.trans hinit) (hreader.trans hr) hpc hcall
  | after hone hle hinit hinline =>
    exact .after (hstarts.trans hone) (hwrites ▸ hle) (hstate ▸ hinit) (hreader ▸ hinline)

/-- The read thread before the handler of `initialize` starts. -/
lemma ReaderStep.before (hkept : cfg.LifecycleKept) (hrun : Runs cfg ls s) (hstep : Step cfg s l s')
    (h : ReaderStep cfg s l s') (hnone : initializations ls = 0)
    (hunwritten : encodingWrites ls = 0) (hs : Untouched ls s)
    (hearly : s.state_ = .Uninitialized ∨ s.state_ = .Exited)
    (hinline : ∀ call pc, s.reader = .inline call pc →
      pc = .checking ∧ call.handler = .initializeRequest)
    (hnotifying : ∀ call, s.reader ≠ .notifying call) :
    Startup (ls ++ [l]) s' ∧ (l.task? = none ∨ l.initializes = true) := by
  have hstarts := initializations_concat ls l
  have hwrites := encodingWrites_concat ls l
  rw [hnone] at hstarts
  rw [hunwritten] at hwrites
  -- steps that start nothing and change neither the state nor the documents
  have hquiet : l.task? = none → s'.state_ = s.state_ → s'.documents_ = s.documents_ →
      (∀ call pc, s'.reader = .inline call pc →
        pc = .checking ∧ call.handler = .initializeRequest) →
      (∀ call, s'.reader ≠ .notifying call) →
      (∀ e task, NewTask cfg s l e task → e = .worker ∧ task.isCallback = true) →
      Startup (ls ++ [l]) s' ∧ (l.task? = none ∨ l.initializes = true) := by
    intro hl hstate hdocuments hinline' hnotifying' hnew
    rcases Label.counts_eq_false (l := l) (by simp [hl]) with ⟨hinit, hset⟩
    rw [hinit] at hstarts
    rw [hset] at hwrites
    refine ⟨.before hstarts hwrites (hs.congr hstep (by rw [hdocuments]) hnew) (hstate ▸ hearly)
      hinline' hnotifying', Or.inl hl⟩
  cases h with
  | @read body msg hr hexited _ =>
    have hstate := hearly.resolve_right hexited
    have hdispatch := dispatch_uninitialized hkept s.messagesRead s.flags.length msg
    rw [← hstate] at hdispatch
    refine ⟨.before hstarts hwrites (hs.congr hstep rfl ?_) ?_ ?_ ?_, Or.inl rfl⟩
    · intro e task hnew
      cases hnew with
      | read htask => exact absurd (hdispatch.2.task?.symm.trans htask) (by simp)
    · rw [← hstate]
      exact hdispatch.1
    · intro call pc hcall
      generalize hnext : (dispatch cfg s.state_ s.messagesRead s.flags.length msg).2 = next
        at hdispatch
      have hcall' : next = .inline call pc := hnext.symm.trans hcall
      cases hdispatch.2 with
      | starting hinit =>
        rcases ReaderPc.inline.inj hcall' with ⟨rfl, rfl⟩
        exact ⟨rfl, hinit⟩
      | _ => exact absurd hcall' (by simp)
    · intro call hcall
      generalize hnext : (dispatch cfg s.state_ s.messagesRead s.flags.length msg).2 = next
        at hdispatch
      have hcall' : next = .notifying call := hnext.symm.trans hcall
      cases hdispatch.2 <;> exact absurd hcall' (by simp)
  | @handler call pc pc' _ capabilities hr hstep' =>
    rcases hinline call pc hr with ⟨rfl, hinit⟩
    have hflag := ((Runs.lifecycle hkept hrun).starting call hr).2.2.2.2
    cases hstep' with
    | cancelled htrue => exact absurd (hflag.symm.trans htrue) (by simp)
    | start =>
      have hinitializes : (Label.handlerStarted call).initializes = true := decide_eq_true hinit
      rw [hinitializes] at hstarts
      have heffect : s.lifecycleEffect capabilities call.handler (.handlerStarted call)
          = { s with state_ := .Initializing } := by
        rw [hinit]
        rfl
      rw [heffect] at hstep ⊢
      refine ⟨.during hstarts (hwrites.trans_le (Nat.zero_le 1)) (fun _ => hwrites)
        (hs.congr hstep rfl (fun _ _ hnew => by cases hnew)) rfl rfl (by simp) hinit,
        Or.inr hinitializes⟩
  | @handlerFinishes call pc _ hr hstep' =>
    rcases hinline call pc hr with ⟨rfl, -⟩
    cases hstep'
  | @handlerEscapes call pc _ hr hstep' =>
    rcases hinline call pc hr with ⟨rfl, -⟩
    cases hstep'
  | notified hr | notifyEscapes hr => exact absurd hr (hnotifying _)
  | parseThrows | sendThrows | exitThrows =>
    exact hquiet rfl rfl rfl hinline hnotifying (fun _ _ hnew => by cases hnew)
  | submit | stop =>
    exact hquiet rfl (Server.setPool_state_ s _ _) (Server.setPool_documents_ s _ _) (by simp)
      (by simp) (fun _ _ hnew => by cases hnew)
  | matched =>
    refine hquiet rfl rfl rfl (by simp) (by simp) (fun _ _ hnew => ?_)
    cases hnew with
    | matched => exact ⟨rfl, rfl⟩
  | endOfInput | leave | send | insertToken | cancel | exited | unmatched | joinSync
  | joinWorkers =>
    exact hquiet rfl rfl rfl (by simp) (by simp) (fun _ _ hnew => by cases hnew)

/-- The read thread in the handler of `initialize`. -/
lemma ReaderStep.during {call : RequestCall} {pc : HandlerPc} (hstep : Step cfg s l s')
    (h : ReaderStep cfg s l s') (hone : initializations ls = 1) (hle : encodingWrites ls ≤ 1)
    (hrunning : pc = .running → encodingWrites ls = 0) (hs : Untouched ls s)
    (hinit : s.state_ = .Initializing) (hr : s.reader = .inline call pc) (hpc : pc ≠ .checking)
    (hcall : call.handler = .initializeRequest) : Startup (ls ++ [l]) s' := by
  have hstarts := initializations_concat ls l
  have hwrites := encodingWrites_concat ls l
  rcases h.inline_inv hr with ⟨r, hstep', hs'⟩
  cases hstep' with
  | cancelled | start => exact absurd rfl hpc
  | poll =>
    rcases hs' with ⟨capabilities, rfl⟩
    refine .during (hstarts.trans hone) (hwrites.trans_le hle)
      (fun _ => hwrites.trans (hrunning rfl))
      (hs.congr hstep rfl (fun _ _ hnew => by cases hnew)) hinit rfl (by simp) hcall
  | returns value =>
    rcases hs' with ⟨capabilities, rfl⟩
    -- the encoding is written here, and was not before
    have hsets : (Label.handlerEnded call (.ok value)).setsEncoding = true := decide_eq_true hcall
    rw [hsets, hrunning rfl] at hwrites
    have hdocuments : (s.lifecycleEffect capabilities call.handler
        (.handlerEnded call (.ok value))).documents_.documents_ = s.documents_.documents_ :=
      s.documents_lifecycleReturns capabilities call.handler
    have hstate : (s.lifecycleEffect capabilities call.handler
        (.handlerEnded call (.ok value))).state_ = s.state_ :=
      s.state_lifecycleReturns capabilities call.handler
    refine .during (hstarts.trans hone) (le_of_eq hwrites) (by simp)
      (hs.congr hstep hdocuments (fun _ _ hnew => by cases hnew)) (hstate.trans hinit) rfl
      (by simp) hcall
  | throws | sendThrows =>
    rcases hs' with ⟨capabilities, rfl⟩
    refine .during (hstarts.trans hone) (hwrites.trans_le hle) (by simp)
      (hs.congr hstep rfl (fun _ _ hnew => by cases hnew)) hinit rfl (by simp) hcall
  | @send reply =>
    subst hs'
    refine .after (hstarts.trans hone) (hwrites.trans_le hle) ?_ (by simp)
    show s.state_ ≠ _
    rw [hinit]
    simp
  | escapes | sendEscapes =>
    subst hs'
    exact Startup.same (.during hone hle hrunning hs hinit hr hpc hcall) ⟨rfl, rfl⟩ rfl rfl
      fun hs => hs.congr hstep rfl (fun _ _ hnew => by cases hnew)

/-- Past the handler of `initialize` it is not called again. -/
lemma ReaderStep.counts (h : ReaderStep cfg s l s')
    (hinline : ∀ call pc, s.reader = .inline call pc → call.handler ≠ .initializeRequest) :
    l.initializes = false ∧ l.setsEncoding = false := by
  cases h with
  | handler _ hr hstep | handlerFinishes hr hstep | handlerEscapes hr hstep =>
    apply Label.counts_eq_false
    intro call' hl
    rw [Task.request.inj (hstep.task? hl)]
    exact hinline _ _ hr
  | _ => exact ⟨rfl, rfl⟩

lemma WorkerStep.counts {e : Executor} {w : ℕ} (h : WorkerStep cfg e w s l s')
    (hrun : Runs cfg ls s) : l.initializes = false ∧ l.setsEncoding = false := by
  apply Label.counts_eq_false
  intro call hl
  rw [Runs.user hrun (h.task? hl)]
  simp

/-- The read thread past the handler of `initialize`. -/
lemma ReaderStep.after (h : ReaderStep cfg s l s') (hone : initializations ls = 1)
    (hle : encodingWrites ls ≤ 1) (hinit : s.state_ ≠ .Uninitialized)
    (hinline : ∀ call pc, s.reader = .inline call pc → call.handler ≠ .initializeRequest) :
    Startup (ls ++ [l]) s' := by
  rcases h.counts hinline with ⟨hinitializes, hsets⟩
  have hquiet : s'.state_ ≠ .Uninitialized →
      (∀ call pc, s'.reader = .inline call pc → call.handler ≠ .initializeRequest) →
      Startup (ls ++ [l]) s' := by
    intro hstate hinline'
    have hstarts := initializations_concat ls l
    have hwrites := encodingWrites_concat ls l
    rw [hinitializes] at hstarts
    rw [hsets] at hwrites
    exact .after (hstarts.trans hone) (hwrites.trans_le hle) hstate hinline'
  cases h with
  | @read body msg =>
    have houtcome :=
      (dispatch_outcome cfg s.state_ s.messagesRead s.flags.length msg).initialized hinit
    exact hquiet houtcome.1 houtcome.2
  | @handler call pc pc' _ capabilities hr hstep =>
    refine hquiet ?_ ?_
    · show (s.lifecycleEffect capabilities call.handler l).state_ ≠ _
      unfold Server.lifecycleEffect
      cases hcall : call.handler with
      | initializeRequest => exact absurd hcall (hinline call pc hr)
      | shutdownRequest => split <;> first | exact hinit | simp [Server.lifecycleStarts]
      | user => split <;> exact hinit
    · intro call' pc'' hr'
      rw [← (ReaderPc.inline.inj hr').1]
      exact hinline call pc hr
  | parseThrows | sendThrows | handlerEscapes | notifyEscapes | exitThrows =>
    exact hquiet hinit hinline
  | submit | stop =>
    refine hquiet ?_ (by simp)
    show (Server.setPool s _ _).state_ ≠ _
    rw [Server.setPool_state_]
    exact hinit
  | endOfInput | leave | send | handlerFinishes | insertToken | cancel | notified | exited
  | unmatched | matched | joinSync | joinWorkers => exact hquiet hinit (by simp)

lemma Startup.step (hkept : cfg.LifecycleKept) (hrun : Runs cfg ls s) (hs : Startup ls s)
    (hstep : Step cfg s l s') : Startup (ls ++ [l]) s' := by
  cases hstep with
  | reader hlive hthrew h =>
    have hstep : Step cfg s l s' := .reader hlive hthrew h
    cases hs with
    | before hnone hunwritten hs hearly hinline hnotifying =>
      exact (h.before hkept hrun hstep hnone hunwritten hs hearly hinline hnotifying).1
    | during hone hle hrunning hs hinit hr hpc hcall =>
      exact h.during hstep hone hle hrunning hs hinit hr hpc hcall
    | after hone hle hinit hinline => exact h.after hone hle hinit hinline
  | worker e w _ h =>
    exact hs.same (h.counts hrun) h.control.1 h.control.2.2.2.1 fun hs => (hs.worker h).1
  | sender hlive h =>
    have hstep : Step cfg s l s' := .sender hlive h
    have hl : l.initializes = false ∧ l.setsEncoding = false := by cases h <;> exact ⟨rfl, rfl⟩
    have hnew : ∀ e task, ¬ NewTask cfg s l e task := by
      intro e task hnew
      cases h <;> cases hnew
    rcases h.frame with ⟨_, _, _, rfl⟩
    exact hs.same hl rfl rfl fun hs => hs.congr hstep rfl fun e task h => absurd h (hnew e task)

theorem Runs.startup (hkept : cfg.LifecycleKept) (h : Runs cfg ls s) : Startup ls s := by
  induction h with
  | nil =>
    refine .before rfl rfl ⟨by simp, ?_, rfl⟩ (Or.inl rfl) ?_ ?_
    · exact fun e task htask => absurd htask (not_hasTask_start cfg)
    · exact fun call pc hcall => absurd hcall (by simp [Server.start])
    · exact fun call hcall => absurd hcall (by simp [Server.start])
  | snoc hrun hstep ih => exact ih.step hkept hrun hstep

/-! ## The encoding -/

lemma Hook.encoding_run (hook : Hook) (documents : DocumentStore) :
    (hook.run documents).encoding_ = documents.encoding_ := by
  cases hook with
  | changed => exact encoding_applyChange _ _ _
  | _ => rfl

lemma NotificationStep.encoding {call : NotificationCall} {documents documents' : DocumentStore}
    {pc : NotificationPc} {r : Progress NotificationPc}
    (h : NotificationStep call documents pc l documents' r) :
    documents'.encoding_ = documents.encoding_ := by
  cases h with
  | hook => exact Hook.encoding_run _ _
  | _ => rfl

lemma WorkerStep.encoding {e : Executor} {w : ℕ} (h : WorkerStep cfg e w s l s') :
    s'.documents_.encoding_ = s.documents_.encoding_ := by
  cases h with
  | notification _ hstep | notificationFinishes _ hstep => exact hstep.encoding
  | _ => simp

/-- Only the handler of `initialize` writes the encoding. -/
lemma Step.encoding (h : Step cfg s l s') (hl : l.setsEncoding = false) :
    s'.documents_.encoding_ = s.documents_.encoding_ := by
  cases h with
  | reader _ _ h =>
    cases h with
    | @handler call pc pc' _ capabilities hr hstep =>
      show (s.lifecycleEffect capabilities call.handler l).documents_.encoding_ = _
      cases hstep with
      | start =>
        show (s.lifecycleStarts call.handler).documents_.encoding_ = _
        cases call.handler <;> rfl
      | returns value =>
        show (s.lifecycleReturns capabilities call.handler).documents_.encoding_ = _
        cases hcall : call.handler with
        | initializeRequest => exact absurd hl (by simp [Label.setsEncoding, hcall])
        | _ => rfl
      | _ => rfl
    | submit | stop =>
      show (Server.setPool s _ _).documents_.encoding_ = _
      rw [Server.setPool_documents_]
    | _ => rfl
  | worker e w _ h => exact h.encoding
  | sender _ h =>
    rcases h.frame with ⟨_, _, _, rfl⟩
    rfl

/-! ## The result -/

/-- Nothing is called before the handler of `initialize`. -/
lemma Step.task?_of_before (hkept : cfg.LifecycleKept) (hrun : Runs cfg ls s)
    (hstep : Step cfg s l s') (hnone : initializations ls = 0) :
    l.task? = none ∨ l.initializes = true := by
  cases Runs.startup hkept hrun with
  | before _ hunwritten hs hearly hinline hnotifying =>
    cases hstep with
    | reader hlive hthrew h =>
      exact (h.before hkept hrun (.reader hlive hthrew h) hnone hunwritten hs hearly hinline
        hnotifying).2
    | worker e w _ h => exact Or.inl (hs.worker h).2
    | sender _ h => exact Or.inl (by cases h <;> rfl)
  | during hone => exact absurd (hone.symm.trans hnone) (by simp)
  | after hone => exact absurd (hone.symm.trans hnone) (by simp)

/-- A server whose handler of `initialize` has not started reads as an uninitialized one. -/
lemma Step.read_uninitialized (hkept : cfg.LifecycleKept) (hrun : Runs cfg ls s)
    {m : ℕ} {body : Bytes} {msg : ParsedMessage} (hstep : Step cfg s (.read m body msg) s')
    (hnone : initializations ls = 0) :
    s.reader = .loop ∧ s.state_ = .Uninitialized ∧
      s' = s.read (dispatch cfg .Uninitialized s.messagesRead s.flags.length msg) := by
  rcases hstep.read_inv with ⟨hr, -, hexited, -, hs'⟩
  cases Runs.startup hkept hrun with
  | before _ _ _ hearly =>
    have hstate := hearly.resolve_right hexited
    rw [hstate] at hs'
    exact ⟨hr, hstate, hs'⟩
  | during hone => exact absurd (hone.symm.trans hnone) (by simp)
  | after hone => exact absurd (hone.symm.trans hnone) (by simp)

/-- Where the encoding is written no document has been touched. -/
lemma Step.untouched_of_setsEncoding (hkept : cfg.LifecycleKept) (hrun : Runs cfg ls s)
    (hstep : Step cfg s l s') (hl : l.setsEncoding = true) :
    (∀ task, .submitted .sync task ∉ ls) ∧ s.documents_.documents_ = ∅ := by
  rcases Label.task?_of_setsEncoding hl with ⟨call, value, rfl, -⟩
  cases Runs.startup hkept hrun with
  | before hnone =>
    rcases Step.task?_of_before hkept hrun hstep hnone with hquiet | hstarts
    · exact absurd hquiet (by simp [Label.task?])
    · exact absurd hstarts (by simp [Label.initializes])
  | during _ _ _ hs => exact ⟨hs.queued, hs.documents⟩
  | after _ _ _ hinline =>
    have hcounts : (Label.handlerEnded call (.ok value)).setsEncoding = false := by
      cases hstep with
      | reader _ _ h => exact (h.counts hinline).2
      | worker _ _ _ h => exact (h.counts hrun).2
      | sender _ h => cases h
    exact absurd (hl.symm.trans hcounts) (by simp)

/-- What is expected of the start of a run. -/
structure InitializeFirst (cfg : Config) (ls : List Label) : Prop where
  /-- No handler and no hook is called before the handler of `initialize`. -/
  first : ∀ ls₁ l ls₂ task, ls = ls₁ ++ l :: ls₂ → l.task? = some task → l.initializes = false →
    initializations ls₁ = 1
  /-- Until then other requests are refused, and notifications but `exit` have no effect. -/
  refused : ∀ ls₁ ls₂ m body req t t', ls = ls₁ ++ .read m body (.request req) :: ls₂ →
    Runs cfg ls₁ t → Step cfg t (.read m body (.request req)) t' → initializations ls₁ = 0 →
    req.method ≠ str "initialize" →
    t'.reader =
      .sending (.error req.id .ServerNotInitialized (str "Server not initialized"))
  ignored : ∀ ls₁ ls₂ m body notif t t', ls = ls₁ ++ .read m body (.notification notif) :: ls₂ →
    Runs cfg ls₁ t → Step cfg t (.read m body (.notification notif)) t' →
    initializations ls₁ = 0 → notif.method ≠ str "exit" →
    t' = { t with messagesRead := t.messagesRead + 1 }
  once : initializations ls ≤ 1
  /-- The encoding is written once, before anything is queued on the sync executor, and with no
  document open. -/
  written : encodingWrites ls ≤ 1
  early : ∀ ls₁ l ls₂ t t', ls = ls₁ ++ l :: ls₂ → Runs cfg ls₁ t → Step cfg t l t' →
    l.setsEncoding = true →
    (∀ task, .submitted .sync task ∉ ls₁) ∧ t.documents_.documents_ = ∅
  unchanged : ∀ ls₁ l ls₂ t t', ls = ls₁ ++ l :: ls₂ → Runs cfg ls₁ t → Step cfg t l t' →
    l.setsEncoding = false → t'.documents_.encoding_ = t.documents_.encoding_

/-- **Nothing runs before `initialize`**, which runs once and alone writes the encoding. -/
theorem initializeFirst (cfg : Config) (hkept : cfg.LifecycleKept) (ls : List Label) (s : Server)
    (h : Runs cfg ls s) : InitializeFirst cfg ls := by
  have hcounts : ∀ {ls s}, Runs cfg ls s → (initializations ls = 0 ∨ initializations ls = 1) ∧
      encodingWrites ls ≤ 1 := by
    intro ls s h
    cases Runs.startup hkept h with
    | before hnone hunwritten => exact ⟨Or.inl hnone, by rw [hunwritten]; exact Nat.zero_le 1⟩
    | during hone hle => exact ⟨Or.inr hone, hle⟩
    | after hone hle => exact ⟨Or.inr hone, hle⟩
  refine ⟨?_, ?_, ?_, ?_, (hcounts h).2, ?_, ?_⟩
  · intro ls₁ l ls₂ task hls hl hinit
    subst hls
    rcases h.split_at with ⟨t, t', ht, hstep, -⟩
    rcases (hcounts ht).1 with hnone | hone
    · rcases Step.task?_of_before hkept ht hstep hnone with hquiet | hstarts
      · exact absurd (hl.symm.trans hquiet) (by simp)
      · exact absurd (hinit.symm.trans hstarts) (by simp)
    · exact hone
  · intro ls₁ ls₂ m body req t t' _ ht hstep hnone hmethod
    rcases Step.read_uninitialized hkept ht hstep hnone with ⟨-, -, rfl⟩
    exact handleRequest_uninitialized cfg _ _ hmethod
  · intro ls₁ ls₂ m body notif t t' _ ht hstep hnone hmethod
    rcases Step.read_uninitialized hkept ht hstep hnone with ⟨hr, hstate, rfl⟩
    have heq : dispatch cfg .Uninitialized t.messagesRead t.flags.length (.notification notif)
        = (.Uninitialized, .loop) := handleNotification_uninitialized cfg _ hmethod
    rw [heq, Server.read, ← hstate, ← hr]
    simp [hr, ReaderPc.newFlags]
  · rcases (hcounts h).1 with hnone | hone <;> omega
  · intro ls₁ l ls₂ t t' _ ht hstep hl
    exact Step.untouched_of_setsEncoding hkept ht hstep hl
  · intro ls₁ l ls₂ t t' _ _ hstep hl
    exact hstep.encoding hl

end Steps

/-- A session in which a request is refused, the server initializes and a document is opened. -/
theorem initializeFirst_session :
    Reaches (Step Session.config) (Server.start Session.config) fun ls _ =>
      initializations ls = 1 ∧ (∃ task, .submitted .sync task ∈ ls) ∧
        InitializeFirst Session.config ls := by
  have hrun : Reaches (Step Session.config) (Server.start Session.config) fun ls _ =>
      initializations ls = 1 ∧ ∃ task, ls.getLast? = some (.submitted .sync task) := by
    apply Reaches.step (.reader rfl rfl (.read Session.hover.json.print rfl (by decide) rfl))
    apply Reaches.step (.reader rfl rfl (.send rfl rfl))
    apply Reaches.step
      (.reader rfl rfl (.read Session.initializeRequest.json.print rfl (by decide) rfl))
    apply Reaches.step (.reader rfl rfl (.handler ⟨none, some (str "utf-8")⟩ rfl (.start rfl)))
    apply Reaches.step
      (.reader rfl rfl (.handler ⟨none, some (str "utf-8")⟩ rfl (.returns .null)))
    apply Reaches.step (.reader rfl rfl (.handlerFinishes rfl (.send rfl)))
    apply Reaches.step (.reader rfl rfl (.read Session.didOpen.json.print rfl (by decide) rfl))
    apply Reaches.step (.reader rfl rfl (.submit rfl))
    exact Reaches.here ⟨rfl, _, rfl⟩
  rcases hrun with ⟨ls, s, hrun, hone, task, hlast⟩
  exact ⟨ls, s, hrun, hone, ⟨task, List.mem_of_getLast? hlast⟩,
    initializeFirst Session.config session_kept ls s hrun⟩

end CLSP
