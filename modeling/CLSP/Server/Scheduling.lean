import CLSP.Lib.Fairness
import CLSP.Server.Tasks
import CLSP.Server.Wire

/-!
# What the threads have to do

The steps a thread is sure to take when it is its turn, when it can take one, and how many are left
of a task. Nobody counts on the steps that wait for the client, or with which a handler of the user
polls its token. That a thread gets its turn is up to the scheduler; that a handler, a hook or a
callback comes to its end is up to the user.
-/

namespace CLSP

open Transition

/-- The steps that a thread is sure to take when it is its turn. -/
def Label.promised : Label → Bool
  | .read _ _ _ => false
  | .parseThrew _ _ => false
  | .endOfInput => false
  | .polled _ _ => false
  | _ => true

/-- The steps of a server, each with its thread. -/
abbrev Threads (cfg : Config) (s : Server) (l : Thread × Label) (s' : Server) : Prop :=
  ThreadStep cfg s l.2 s' l.1

/-- The threads of the server itself; the others are its user's. -/
def Thread.serves : Thread → Bool
  | .reader => true
  | .worker _ _ => true
  | _ => false

/-- The steps of a thread that it is sure to take. -/
def Thread.Own (t : Thread) (_ : Server) (l : Thread × Label) (_ : Server) : Prop :=
  l.1 = t ∧ t.serves = true ∧ l.2.promised = true

def ReaderPc.inUserCode : ReaderPc → Bool
  | .inline _ .running => true
  | .notifying _ => true
  | .exiting => true
  | _ => false

def Running.inUserCode : Running → Bool
  | .request _ .running => true
  | .notification _ .user => true
  | .invoked _ _ _ => true
  | _ => false

/-- The thread is in code of the user: a handler, a hook, or a callback. -/
def Server.InUserCode (s : Server) : Thread → Prop
  | .reader => s.terminated = false ∧ s.threw = false ∧ s.reader.inUserCode = true
  | .worker e w => s.terminated = false ∧ ∃ running,
      (s.pool e).workers_[w]? = some (.busy running) ∧ running.inUserCode = true
  | _ => False

/-- The steps among them that a thread takes outside of the user's code, when it is scheduled. -/
def Thread.Scheduled (t : Thread) (s : Server) (l : Thread × Label) (s' : Server) : Prop :=
  t.Own s l s' ∧ ¬ s.InUserCode t

/-- The user's code returns, or throws. -/
def UserCodeReturns {cfg : Config} (x : Execution (Threads cfg)) : Prop :=
  ∀ (t : Thread) n, ∃ m ≥ n, ¬ (x.state m).InUserCode t

/-- A step brings the threads nearer to what is waited for, or it is none of theirs. -/
abbrev Nearer (cfg : Config) {ι : Type} (threads : ι → Thread) (P : Server → ℕ → Prop) (s : Server)
    (r : ℕ) (l : Thread × Label) (s' : Server) : Prop :=
  Execution.Descends (fun i => (threads i).Own)
    (fun s i => Enabled (Threads cfg) (threads i).Own s) P s r l s'

/-! ## What is left of a task -/

def HandlerPc.work : HandlerPc → ℕ
  | .checking => 4
  | .running => 3
  | .responding _ false => 2
  | .responding _ true => 1

def NotificationPc.work : NotificationPc → ℕ
  | .starting => 3
  | .running => 2
  | .user => 1

def Running.work : Running → ℕ
  | .request _ pc => pc.work + 2
  | .erasing _ => 2
  | .notification _ pc => pc.work + 1
  | .callback _ _ _ => 3
  | .invoked _ _ _ => 2

def Task.work (task : Task) : ℕ :=
  task.start.work

def Worker.work : Worker Running → ℕ
  | .idle => 1
  | .busy running => running.work
  | .exited => 0

/-- What is left of some tasks and of those the workers of a pool are at. -/
def Server.work (s : Server) (e : Executor) (tasks : List Task) : ℕ :=
  (tasks.map Task.work).sum + ((s.pool e).workers_.map Worker.work).sum

section Steps

variable {cfg : Config} {s s' : Server} {l : Label} {e : Executor} {w : ℕ}

lemma HandlerPc.work_pos (pc : HandlerPc) : 0 < pc.work := by
  cases pc with
  | responding _ caught => cases caught <;> exact Nat.succ_pos _
  | _ => exact Nat.succ_pos _

lemma NotificationPc.work_pos (pc : NotificationPc) : 0 < pc.work := by
  cases pc <;> exact Nat.succ_pos _

lemma HandlerStep.work {nl : Nlohmann} {call : RequestCall} {flag : Bool} {pc pc' : HandlerPc}
    (h : HandlerStep nl call flag pc l (.next pc')) :
    pc'.work + l.promised.toNat ≤ pc.work := by
  cases h <;> simp [HandlerPc.work, Label.promised]

lemma NotificationStep.work {call : NotificationCall} {documents documents' : DocumentStore}
    {pc pc' : NotificationPc} (h : NotificationStep call documents pc l documents' (.next pc')) :
    pc'.work + l.promised.toNat ≤ pc.work := by
  cases h with
  | start => split <;> simp [NotificationPc.work, Label.promised]
  | hook => simp [NotificationPc.work, Label.promised]

/-- Polling a token leaves a server as it is. -/
lemma WorkerStep.eq_of_polls (h : WorkerStep cfg e w s l s') (hl : l.promised = false) :
    s' = s := by
  cases h with
  | @handler call pc pc' _ hw hstep =>
    cases hstep with
    | poll =>
      have hset : (s.pool e).workers_.set w (.busy (.request call .running)) =
          (s.pool e).workers_ := by
        rcases List.getElem?_eq_some_iff.mp hw with ⟨hlt, hworker⟩
        rw [← hworker, List.set_getElem_self]
      have hpool : (s.pool e).progress w (.request call .running) = s.pool e := by
        unfold ThreadPool.progress
        congr
      rw [hpool]
      cases e <;> rfl
    | _ => exact absurd hl (by simp [Label.promised])
  | handlerFinishes _ hstep | handlerEscapes _ hstep =>
    cases hstep <;> exact absurd hl (by simp [Label.promised])
  | notification _ hstep | notificationFinishes _ hstep | notificationEscapes _ hstep
  | callbackFinishes _ hstep | callbackEscapes _ hstep =>
    cases hstep <;> exact absurd hl (by simp [Label.promised])
  | _ => exact absurd hl (by simp [Label.promised])

/-- What a worker does in a step: the tasks it takes, and what it is at before and after. -/
structure Turn (s : Server) (l : Label) (s' : Server) (e : Executor) (w : ℕ) (taken : List Task)
    (old new : Worker Running) : Prop where
  worker : (s.pool e).workers_[w]? = some old
  workers : (s'.pool e).workers_ = (s.pool e).workers_.set w new
  tasks : (s.pool e).tasks_ = taken ++ (s'.pool e).tasks_
  exits : new = .exited → (s.pool e).tasks_ = []
  work : new.work + l.promised.toNat ≤ old.work + (taken.map Task.work).sum

/-- A worker that is at a task goes on in it, or is done with it. -/
lemma turn_of_busy {running : Running} (new : Worker Running)
    (hw : (s.pool e).workers_[w]? = some (.busy running))
    (hworkers : (s'.pool e).workers_ = (s.pool e).workers_.set w new)
    (htasks : (s'.pool e).tasks_ = (s.pool e).tasks_) (hnew : new ≠ .exited)
    (hwork : new.work + l.promised.toNat ≤ running.work) :
    ∃ taken old new, Turn s l s' e w taken old new ∧
      ∀ task ∈ taken, taken = [task] ∧ l = .taken e task ∧ new = .busy task.start :=
  ⟨[], .busy running, new, ⟨hw, hworkers, htasks.symm, fun h => absurd h hnew, hwork⟩, by simp⟩

lemma WorkerStep.turn (h : WorkerStep cfg e w s l s') :
    s' = { s with terminated := true } ∨ ∃ taken old new, Turn s l s' e w taken old new ∧
      ∀ task ∈ taken, taken = [task] ∧ l = .taken e task ∧ new = .busy task.start := by
  have hle := Bool.toNat_le l.promised
  -- an exception that leaves a task ends the process; every other step is a turn
  cases h with
  | @take task rest htasks hw =>
    refine Or.inr ⟨[task], .idle, .busy task.start, ⟨hw, ?_, ?_, nofun, ?_⟩, by simp⟩
    · rw [Server.pool_setPool]
      rfl
    · rw [Server.pool_setPool, htasks]
      rfl
    · simp [Worker.work, Task.work, Label.promised, add_comm]
  | exit hdrained hw =>
    refine Or.inr ⟨[], .idle, .exited, ⟨hw, ?_, ?_, fun _ => hdrained.2, ?_⟩, by simp⟩
    · rw [Server.pool_setPool]
      rfl
    · rw [Server.pool_setPool]
      rfl
    · simp [Worker.work, Label.promised]
  | @handler call pc pc' _ hw hstep =>
    have hwork := hstep.work
    refine Or.inr (turn_of_busy (.busy (.request call pc')) hw ?_ ?_ nofun ?_)
    · cases e <;> rfl
    · cases e <;> rfl
    · show pc'.work + 2 + _ ≤ pc.work + 2
      omega
  | @handlerFinishes call pc _ hw hstep =>
    have hpos := pc.work_pos
    refine Or.inr (turn_of_busy (.busy (.erasing call)) hw ?_ ?_ nofun ?_)
    · cases e <;> rfl
    · cases e <;> rfl
    · show 2 + _ ≤ pc.work + 2
      omega
  | eraseToken hw =>
    refine Or.inr (turn_of_busy .idle hw ?_ ?_ nofun (le_refl 2))
    · cases e <;> rfl
    · cases e <;> rfl
  | @notification call pc pc' _ _ hw hstep =>
    have hwork := hstep.work
    refine Or.inr (turn_of_busy (.busy (.notification call pc')) hw ?_ ?_ nofun ?_)
    · cases e <;> rfl
    · cases e <;> rfl
    · show pc'.work + 1 + _ ≤ pc.work + 1
      omega
  | @notificationFinishes call pc _ _ hw hstep =>
    have hpos := pc.work_pos
    refine Or.inr (turn_of_busy .idle hw ?_ ?_ nofun ?_)
    · cases e <;> rfl
    · cases e <;> rfl
    · show 1 + _ ≤ pc.work + 1
      omega
  | @invoke cb payload isError hw =>
    refine Or.inr (turn_of_busy (.busy (.invoked cb payload isError)) hw ?_ ?_ nofun (le_refl 3))
    · cases e <;> rfl
    · cases e <;> rfl
  | callbackFinishes hw =>
    refine Or.inr (turn_of_busy .idle hw ?_ ?_ nofun ?_)
    · cases e <;> rfl
    · cases e <;> rfl
    · show 1 + _ ≤ 2
      omega
  | handlerEscapes | notificationEscapes | callbackEscapes => exact Or.inl rfl

/-! ## Threads that can go on -/

/-- The worker has not left its loop. -/
def Server.Up (s : Server) (e : Executor) (w : ℕ) : Prop :=
  ∃ worker, (s.pool e).workers_[w]? = some worker ∧ worker ≠ .exited

/-- A request handler can always go on. -/
lemma HandlerStep.possible (nl : Nlohmann) (call : RequestCall) (flag : Bool) (pc : HandlerPc) :
    ∃ l p, l.promised = true ∧ HandlerStep nl call flag pc l p := by
  cases pc with
  | checking =>
    cases hflag : flag with
    | true => exact ⟨_, _, rfl, .cancelled rfl⟩
    | false => exact ⟨_, _, rfl, .start rfl⟩
  | running => exact ⟨_, _, rfl, .returns .null⟩
  | responding reply caught =>
    cases hserialize : (reply.frame call.id).serialize nl with
    | ok text => exact ⟨_, _, rfl, .send hserialize⟩
    | error what =>
      cases caught with
      | true => exact ⟨_, _, rfl, .sendEscapes hserialize⟩
      | false => exact ⟨_, _, rfl, .sendThrows hserialize⟩

lemma NotificationStep.possible (call : NotificationCall) (documents : DocumentStore)
    (pc : NotificationPc) :
    ∃ l documents' p, l.promised = true ∧ NotificationStep call documents pc l documents' p := by
  cases pc with
  | starting => exact ⟨_, _, _, rfl, .start⟩
  | running =>
    cases hhook : call.handler.hook call.params documents with
    | error error => exact ⟨_, _, _, rfl, .decodeThrows (e := .requestCancelled) hhook rfl⟩
    | ok hook =>
      cases hook with
      | none => exact ⟨_, _, _, rfl, .noHook hhook⟩
      | some hook => exact ⟨_, _, _, rfl, .hook hhook⟩
  | user => exact ⟨_, _, _, rfl, .returns⟩

lemma CallbackStep.possible (payload : Json) (isError : Bool) (cb : ResponseCallback) :
    ∃ l p, l.promised = true ∧ CallbackStep payload isError cb l p ∧
      ∀ pc, p ≠ .next pc := by
  cases cb with
  | raw call => exact ⟨_, _, rfl, .returns, nofun⟩
  | typed call get =>
    cases isError with
    | true => exact ⟨_, _, rfl, .error rfl, nofun⟩
    | false =>
      cases hget : get payload with
      | ok => exact ⟨_, _, rfl, .decodes rfl hget, nofun⟩
      | error e => exact ⟨_, _, rfl, .decodeThrows rfl hget, nofun⟩

lemma WorkerStep.possible (cfg : Config) {running : Running}
    (hw : (s.pool e).workers_[w]? = some (.busy running)) :
    ∃ l s', l.promised = true ∧ WorkerStep cfg e w s l s' := by
  cases running with
  | request call pc =>
    rcases HandlerStep.possible cfg.nl call (s.flag call) pc with ⟨l, p, hl, hstep⟩
    cases p with
    | next => exact ⟨_, _, hl, .handler hw hstep⟩
    | finished => exact ⟨_, _, hl, .handlerFinishes hw hstep⟩
    | escaped => exact ⟨_, _, hl, .handlerEscapes hw hstep⟩
  | erasing call => exact ⟨_, _, rfl, .eraseToken hw⟩
  | notification call pc =>
    rcases NotificationStep.possible call s.documents_ pc with ⟨l, documents, p, hl, hstep⟩
    cases p with
    | next => exact ⟨_, _, hl, .notification hw hstep⟩
    | finished => exact ⟨_, _, hl, .notificationFinishes hw hstep⟩
    | escaped => exact ⟨_, _, hl, .notificationEscapes hw hstep⟩
  | callback cb payload isError => exact ⟨_, _, rfl, .invoke hw⟩
  | invoked cb payload isError =>
    rcases CallbackStep.possible payload isError cb with ⟨l, p, hl, hstep, hp⟩
    cases p with
    | next pc => exact absurd rfl (hp pc)
    | finished => exact ⟨_, _, hl, .callbackFinishes hw hstep⟩
    | escaped => exact ⟨_, _, hl, .callbackEscapes hw hstep⟩

/-- When a worker can go on. -/
lemma enabled_iff :
    Enabled (Threads cfg) (Thread.worker e w).Own s ↔
      s.terminated = false ∧ ∃ worker, (s.pool e).workers_[w]? = some worker ∧ worker ≠ .exited ∧
        (worker = .idle → (s.pool e).tasks_ ≠ [] ∨ (s.pool e).stopping_ = true) := by
  constructor
  · rintro ⟨⟨t, l⟩, s', ⟨rfl, -⟩, hstep⟩
    cases hstep with
    | worker _ _ hlive hstep =>
      refine ⟨hlive, ?_⟩
      cases hstep with
      | take htasks hw => exact ⟨_, hw, nofun, fun _ => Or.inl (by simp [htasks])⟩
      | exit hdrained hw => exact ⟨_, hw, nofun, fun _ => Or.inr hdrained.1⟩
      | handler hw | handlerFinishes hw | handlerEscapes hw | eraseToken hw | notification hw
      | notificationFinishes hw | notificationEscapes hw | invoke hw | callbackFinishes hw
      | callbackEscapes hw => exact ⟨_, hw, nofun, nofun⟩
  · rintro ⟨hlive, worker, hw, hne, hidle⟩
    cases worker with
    | idle =>
      cases htasks : (s.pool e).tasks_ with
      | nil =>
        have hstopping := (hidle rfl).resolve_left (fun h => h htasks)
        exact ⟨(_, _), _, ⟨rfl, rfl, rfl⟩, .worker e w hlive (.exit ⟨hstopping, htasks⟩ hw)⟩
      | cons task rest => exact ⟨(_, _), _, ⟨rfl, rfl, rfl⟩, .worker e w hlive (.take htasks hw)⟩
    | busy running =>
      rcases WorkerStep.possible cfg hw with ⟨l, s', hl, hstep⟩
      exact ⟨(_, l), s', ⟨rfl, rfl, hl⟩, .worker e w hlive hstep⟩
    | exited => exact absurd rfl hne

/-- A worker can go on while there is a task in the queue, and once the pool is stopped. -/
lemma Server.Up.enabled (hlive : s.terminated = false) (hup : s.Up e w)
    (hpool : (s.pool e).tasks_ ≠ [] ∨ (s.pool e).stopping_ = true) :
    Enabled (Threads cfg) (Thread.worker e w).Own s := by
  rcases hup with ⟨worker, hw, hne⟩
  exact enabled_iff.mpr ⟨hlive, worker, hw, hne, fun _ => hpool⟩

lemma up_of_enabled (h : Enabled (Threads cfg) (Thread.worker e w).Own s) : s.Up e w := by
  rcases enabled_iff.mp h with ⟨-, worker, hw, hne, -⟩
  exact ⟨worker, hw, hne⟩

/-- A pool that is not joined has a worker left. -/
lemma exists_up (h : ¬ (s.pool e).Joined) : ∃ w, s.Up e w := by
  unfold ThreadPool.Joined at h
  rw [List.all_eq_true] at h
  push Not at h
  rcases h with ⟨worker, hmem, hworker⟩
  rcases List.getElem?_of_mem hmem with ⟨w, hw⟩
  refine ⟨w, worker, hw, ?_⟩
  rintro rfl
  exact hworker rfl

/-- What is left of a message for the read thread. -/
def ReaderPc.work : ReaderPc → ℕ
  | .loop => 0
  | .inline _ pc => pc.work
  | .registering _ => 2
  | .responding _ _ => 2
  | _ => 1

/-- The read thread is at a message. -/
def ReaderPc.active : ReaderPc → Bool
  | .loop => false
  | .stopping _ => false
  | .joining _ => false
  | .returned => false
  | _ => true

lemma ReaderStep.possible (cfg : Config) (h : s.reader.active = true) :
    ∃ l s', l.promised = true ∧ ReaderStep cfg s l s' := by
  cases hr : s.reader with
  | loop | stopping | joining | returned => simp [hr, ReaderPc.active] at h
  | sending frame =>
    cases hserialize : frame.serialize cfg.nl with
    | ok text => exact ⟨_, _, rfl, .send hr hserialize⟩
    | error what => exact ⟨_, _, rfl, .sendThrows hr hserialize⟩
  | inline call pc =>
    rcases HandlerStep.possible cfg.nl call (s.flag call) pc with ⟨l, p, hl, hstep⟩
    cases p with
    | next => exact ⟨_, _, hl, .handler ⟨none, none⟩ hr hstep⟩
    | finished => exact ⟨_, _, hl, .handlerFinishes hr hstep⟩
    | escaped => exact ⟨_, _, hl, .handlerEscapes hr hstep⟩
  | registering call => exact ⟨_, _, rfl, .insertToken hr⟩
  | submitting e task => exact ⟨_, _, rfl, .submit hr⟩
  | responding resp id =>
    cases hfound : s.pendingRequests_.lookup id with
    | none => exact ⟨_, _, rfl, .unmatched hr hfound⟩
    | some cb => exact ⟨_, _, rfl, .matched hr hfound⟩
  | cancelling id => exact ⟨_, _, rfl, .cancel hr⟩
  | notifying call =>
    have hreturns : ReaderStep cfg s (.notificationEnded call none) { s with reader := .loop } :=
      .notified hr nofun
    exact ⟨_, _, rfl, hreturns⟩
  | exiting => exact ⟨_, _, rfl, .exited hr⟩

lemma ReaderStep.enabled (hlive : s.terminated = false) (hthrew : s.threw = false)
    (h : s.reader.active = true) : Enabled (Threads cfg) Thread.reader.Own s := by
  rcases ReaderStep.possible cfg h with ⟨l, s', hl, hstep⟩
  exact ⟨(.reader, l), s', ⟨rfl, rfl, hl⟩, .reader hlive hthrew hstep⟩

/-- A thread in the user's code can leave it. -/
lemma Server.InUserCode.enabled {t : Thread} (h : s.InUserCode t) :
    Enabled (Threads cfg) t.Own s := by
  cases t with
  | reader =>
    rcases h with ⟨hlive, hthrew, hr⟩
    refine ReaderStep.enabled hlive hthrew ?_
    cases hpc : s.reader with
    | inline | notifying | exiting => rfl
    | _ => simp [hpc, ReaderPc.inUserCode] at hr
  | worker e w =>
    rcases h with ⟨hlive, running, hw, -⟩
    exact enabled_iff.mpr ⟨hlive, _, hw, nofun, nofun⟩
  | sender | notifier => exact h.elim

end Steps

end CLSP
