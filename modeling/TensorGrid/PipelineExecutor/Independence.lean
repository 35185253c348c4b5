import TensorGrid.Lib.Components
import TensorGrid.PipelineExecutor.Sessions

/-!
# Sessions do not interfere

The executor is a map of sessions behind one lock. `sessionMachine` is a single session, with what
each call does to it and answers. Every session of an executor is one such machine that sees the
calls for its id only (`component`), so a run does to a session, and answers for it, what its own
calls do in their order, and `get_stats` counts what these make (`sessions_independent`).

One thing the other sessions do change: how long a call takes. `execute` starts its clock before it
waits for the lock, and two fields of its answer are made from that time, so the answers are the
same up to these two (`ExecutorReply.untimed`).
-/

namespace TensorGrid

open Rust

/-- The session that a call is for. -/
def ExecutorEvent.sessionId : ExecutorEvent → SessionId
  | .initializeSession sessionId _ _ => sessionId
  | .execute request _ _ => request.sessionId
  | .pauseSession sessionId => sessionId
  | .resumeSession sessionId => sessionId
  | .cancelSession sessionId => sessionId

inductive ExecutorReply
  | done (outcome : Outcome PipelineError Unit)
  | executed (outcome : Outcome PipelineError ExecutionResult)

/-- The answer without what comes from the time that the call took. -/
def ExecutorReply.untimed : ExecutorReply → ExecutorReply
  | .done outcome => .done outcome
  | .executed outcome => .executed do
    let result ← outcome
    pure { result with completionTimeMs := 0, tokensPerSecond := 0 }

/-- The call without the time that it took. -/
def ExecutorEvent.untimed : ExecutorEvent → ExecutorEvent
  | .execute request clock _ => .execute request clock ⟨0, 0⟩
  | e => e

namespace PipelineExecutor

/-- What a call returns. -/
def reply (overflowChecks : Bool) (s : PipelineExecutor) : ExecutorEvent → ExecutorReply
  | .initializeSession sessionId plan now => .done (s.initializeSession sessionId plan now).1
  | .execute request clock elapsed =>
    .executed (s.execute overflowChecks request clock elapsed).1
  | .pauseSession sessionId => .done (s.pauseSession sessionId).1
  | .resumeSession sessionId => .done (s.resumeSession sessionId).1
  | .cancelSession sessionId => .done (s.cancelSession sessionId).1

/-! ## One session -/

/-- A session that has just been initialized. -/
def freshSession (sessionId : SessionId) (plan : ExecutionPlan) (now : DateTime) :
    SessionState where
  sessionId := sessionId
  plan := plan
  stageStates := plan.stages.map fun stage =>
    { stageId := stage.id, nodeId := stage.nodeId, status := .idle, inputTensors := []
      outputTensors := [], lastExecution := none }
  tensorBuffer := ∅
  status := .initializing
  createdAt := now

section
variable (overflowChecks : Bool)

/-- The session after a call for it, `none` if there is none. -/
def nextSession (session : Option SessionState) : ExecutorEvent → Option SessionState
  | .initializeSession sessionId plan now => some (freshSession sessionId plan now)
  | .execute request clock _ => session.map fun session =>
    if Ready (some session.status) then
      { session with
        status := .running
        stageStates := (generate overflowChecks session.stageStates request clock).2 }
    else session
  | .pauseSession _ => session.map fun session => { session with status := .paused }
  | .resumeSession _ => session.map fun session =>
    if session.status = .paused then { session with status := .running } else session
  | .cancelSession _ => none

/-- What the session answers to a call for it. -/
def sessionReply (session : Option SessionState) (e : ExecutorEvent) : ExecutorReply :=
  match e, session with
  | .initializeSession _ _ _, _ => .done (.ok ())
  | .execute request clock elapsed, some session =>
    .executed (if Ready (some session.status) then do
        let tokens ← (generate overflowChecks session.stageStates request clock).1
        pure (request.result elapsed tokens)
      else .err (.sessionNotReady ("Session status: " ++ session.status.debug)))
  | .execute request _ _, none => .executed (.err (.sessionNotFound request.sessionId))
  | .resumeSession _, some session =>
    .done (if session.status = .paused then .ok ()
      else .err (.sessionNotReady ("Cannot resume session in status: " ++ session.status.debug)))
  | .pauseSession _, some _ | .cancelSession _, some _ => .done (.ok ())
  | .pauseSession sessionId, none | .resumeSession sessionId, none
  | .cancelSession sessionId, none => .done (.err (.sessionNotFound sessionId))

def sessionMachine : Lts.Machine (Option SessionState) ExecutorEvent ExecutorReply :=
  ⟨nextSession overflowChecks, sessionReply overflowChecks⟩

end

/-! ## The executor is made of sessions -/

section
variable {overflowChecks : Bool} {s t : PipelineExecutor} {e : ExecutorEvent} {id : SessionId}

theorem not_ready_iff {status : SessionStatus} :
    (status ≠ .initializing ∧ status ≠ .running) ↔ ¬ Ready (some status) := by
  simp [Ready, not_or]

/-- **A call moves the session that it is for.** -/
theorem lookup_step (he : s.step overflowChecks e = some t) :
    t.activeSessions.lookup e.sessionId =
      nextSession overflowChecks (s.activeSessions.lookup e.sessionId) e := by
  cases e with
  | initializeSession k plan now =>
    cases he
    exact AList.lookup_insert _
  | execute request clock elapsed =>
    cases he
    simp only [ExecutorEvent.sessionId, execute, nextSession]
    cases hl : s.activeSessions.lookup request.sessionId with
    | none => exact hl
    | some session =>
      simp only [not_ready_iff, ite_not, Option.map_some]
      split
      · simp [hl]
      · exact hl
  | pauseSession k =>
    cases he
    simp only [ExecutorEvent.sessionId, pauseSession, nextSession, setStatus]
    split
    · exact HashMap.lookup_modify _ _ _
    · next hno => simp [AList.lookup_eq_none.2 hno]
  | resumeSession k =>
    cases he
    simp only [ExecutorEvent.sessionId, resumeSession, nextSession, setStatus]
    cases hl : s.activeSessions.lookup k with
    | none => exact hl
    | some session =>
      simp only [Option.map_some]
      split
      · simp [hl]
      · exact hl
  | cancelSession k =>
    cases he
    simp only [ExecutorEvent.sessionId, cancelSession, nextSession]
    split
    · exact AList.lookup_erase _ _
    · next hno => exact AList.lookup_eq_none.2 hno

/-- The other sessions stay as they are. -/
theorem lookup_step_ne (he : s.step overflowChecks e = some t) (hne : id ≠ e.sessionId) :
    t.activeSessions.lookup id = s.activeSessions.lookup id := by
  cases e with
  | initializeSession k plan now =>
    cases he
    exact AList.lookup_insert_ne hne
  | execute request clock elapsed =>
    cases he
    simp only [execute]
    split
    · rfl
    · split
      · rfl
      · exact HashMap.lookup_modify_ne hne _ _
  | pauseSession k =>
    cases he
    simp only [pauseSession, setStatus]
    split
    · exact HashMap.lookup_modify_ne hne _ _
    · rfl
  | resumeSession k =>
    cases he
    simp only [resumeSession, setStatus]
    split
    · split
      · exact HashMap.lookup_modify_ne hne _ _
      · rfl
    · rfl
  | cancelSession k =>
    cases he
    simp only [cancelSession]
    split
    · exact AList.lookup_erase_ne hne
    · rfl

/-- **A call is answered by the session that it is for.** -/
theorem reply_eq (s : PipelineExecutor) (e : ExecutorEvent) : s.reply overflowChecks e =
    sessionReply overflowChecks (s.activeSessions.lookup e.sessionId) e := by
  cases e with
  | initializeSession k plan now => rfl
  | execute request clock elapsed =>
    simp only [ExecutorEvent.sessionId, reply, execute, sessionReply]
    cases s.activeSessions.lookup request.sessionId with
    | none => rfl
    | some session =>
      simp only [not_ready_iff, ite_not]
      split <;> rfl
  | pauseSession k | cancelSession k =>
    by_cases hk : k ∈ s.activeSessions
    · obtain ⟨session, hl⟩ := HashMap.lookup_of_mem hk
      simp [ExecutorEvent.sessionId, reply, pauseSession, cancelSession, sessionReply, hk, hl]
    · simp [ExecutorEvent.sessionId, reply, pauseSession, cancelSession, sessionReply, hk,
        AList.lookup_eq_none.2 hk]
  | resumeSession k =>
    simp only [ExecutorEvent.sessionId, reply, resumeSession, sessionReply]
    cases s.activeSessions.lookup k with
    | none => rfl
    | some session =>
      simp only
      split <;> rfl

variable (overflowChecks id) in
/-- Each session is a component of the executor. -/
theorem component : Lts.Component (step overflowChecks) (reply overflowChecks)
    (fun s => s.activeSessions.lookup id) (fun e => e.sessionId = id)
    (sessionMachine overflowChecks) where
  next he hid := by
    obtain rfl := of_decide_eq_true hid
    exact lookup_step he
  out {s e} hid := by
    obtain rfl := of_decide_eq_true hid
    exact reply_eq s e
  other he hid := lookup_step_ne he (Ne.symm (of_decide_eq_false hid))

end

/-- The session `id` after the calls `es`, of which it sees its own. -/
def sessionAfter (overflowChecks : Bool) (es : List ExecutorEvent) (id : SessionId) :
    Option SessionState :=
  (sessionMachine overflowChecks).run none (es.filter (·.sessionId = id))

theorem exists_exec (overflowChecks : Bool) (s : PipelineExecutor) (es : List ExecutorEvent) :
    ∃ t, Lts.exec (step overflowChecks) s es = some t := by
  induction es generalizing s with
  | nil => exact ⟨s, rfl⟩
  | cons e es ih =>
    obtain ⟨u, hu⟩ : ∃ u, s.step overflowChecks e = some u := by
      cases e <;> exact ⟨_, rfl⟩
    obtain ⟨t, ht⟩ := ih u
    exact ⟨t, Lts.exec_cons.2 ⟨u, hu, ht⟩⟩

theorem mem_of_exec {overflowChecks : Bool} {es : List ExecutorEvent} {s : PipelineExecutor}
    (h : Lts.exec (step overflowChecks) new es = some s) {id : SessionId}
    (hid : id ∈ s.activeSessions) : id ∈ es.map (·.sessionId) := by
  by_contra hno
  have hnone : es.filter (·.sessionId = id) = [] := by
    rw [List.filter_eq_nil_iff]
    intro e he heid
    exact hno (of_decide_eq_true heid ▸ List.mem_map_of_mem he)
  have hlookup := (component overflowChecks id).exec h
  rw [hnone] at hlookup
  exact AList.lookup_eq_none.1 hlookup hid

theorem nextSession_untimed (overflowChecks : Bool) (session : Option SessionState)
    (e : ExecutorEvent) :
    nextSession overflowChecks session e.untimed = nextSession overflowChecks session e := by
  cases e <;> rfl

theorem sessionReply_untimed (overflowChecks : Bool) (session : Option SessionState)
    (e : ExecutorEvent) : (sessionReply overflowChecks session e.untimed).untimed =
      (sessionReply overflowChecks session e).untimed := by
  cases e with
  | execute request clock elapsed =>
    cases session with
    | none => rfl
    | some session =>
      simp only [ExecutorEvent.untimed, sessionReply, ExecutorReply.untimed]
      split
      · cases (generate overflowChecks session.stageStates request clock).1 <;> rfl
      · rfl
  | initializeSession | pauseSession | resumeSession | cancelSession => rfl

/-- **Sessions do not interfere.** After any calls, in any order, each session is what its own calls
have made of it, and up to the times these were answered as if there were no others, however long
they would have taken then. `get_stats` counts the sessions that exist by these histories. -/
theorem sessions_independent (overflowChecks : Bool) (es : List ExecutorEvent) :
    ∃ s, Lts.exec (step overflowChecks) new es = some s ∧
      (∀ id, s.activeSessions.lookup id = sessionAfter overflowChecks es id) ∧
      (∀ id alone, alone.map ExecutorEvent.untimed =
          (es.filter (·.sessionId = id)).map ExecutorEvent.untimed →
        s.activeSessions.lookup id = (sessionMachine overflowChecks).run none alone ∧
        (Lts.answers (step overflowChecks) (reply overflowChecks) (·.sessionId = id) new es).map
            ExecutorReply.untimed =
          ((sessionMachine overflowChecks).outputs none alone).map ExecutorReply.untimed) ∧
      s.getStats =
        let sessions := (es.map (·.sessionId)).dedup.filterMap (sessionAfter overflowChecks es)
        { totalSessions := sessions.length
          runningSessions := sessions.countP (·.status = .running)
          pausedSessions := sessions.countP (·.status = .paused) } := by
  obtain ⟨s, hs⟩ := exists_exec overflowChecks new es
  have hlookup : ∀ id, s.activeSessions.lookup id = sessionAfter overflowChecks es id :=
    fun id => (component overflowChecks id).exec hs
  have hnext := nextSession_untimed overflowChecks
  have hout := sessionReply_untimed overflowChecks
  refine ⟨s, hs, hlookup, fun id alone halone => ⟨?_, ?_⟩, ?_⟩
  · rw [hlookup, sessionAfter, ← Lts.Machine.run_map hnext, ← halone, Lts.Machine.run_map hnext]
  · rw [(component overflowChecks id).outputs hs, ← Lts.Machine.outputs_map hnext hout, ← halone,
      Lts.Machine.outputs_map hnext hout]
    rfl
  · have hperm := HashMap.filterMap_lookup_perm (es.map (·.sessionId)).nodup_dedup
      fun id hid => List.mem_dedup.2 (mem_of_exec hs hid)
    rw [funext hlookup] at hperm
    simp only [getStats, hperm.length_eq, hperm.countP_eq]

end PipelineExecutor

end TensorGrid
