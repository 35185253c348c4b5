import TensorGrid.Lib.Lts
import TensorGrid.PipelineExecutor.Model

/-!
# Paused sessions

`nextStatus` is the life of one session: what each call does to its status. The executor follows it
for every session (`status_step`), and a call succeeds or not by the status alone, up to an overflow
in `execute` (`ready_of_execute`, `execute_of_ready`).

A pause is to last until a `resume_session` or a `cancel_session`. But `initialize_session` replaces
whatever session has the id, a paused one too. A session stays paused exactly if no call does that:
`staysPaused_iff`.
-/

namespace TensorGrid.PipelineExecutor

open Rust

variable {overflowChecks : Bool} {s t : PipelineExecutor} {e : ExecutorEvent} {id : SessionId}

/-! ## The status of a session -/

def status (s : PipelineExecutor) (id : SessionId) : Option SessionStatus :=
  (s.activeSessions.lookup id).map (·.status)

/-- The status in which `execute` goes on. -/
def Ready (status : Option SessionStatus) : Prop :=
  status = some .initializing ∨ status = some .running

instance (status : Option SessionStatus) : Decidable (Ready status) :=
  inferInstanceAs (Decidable (_ ∨ _))

/-- What a call does to the status of the session `id`, `none` if there is no such session. -/
def nextStatus (id : SessionId) (status : Option SessionStatus) :
    ExecutorEvent → Option SessionStatus
  | .initializeSession k _ _ => if k = id then some .initializing else status
  | .execute request _ _ =>
    if request.sessionId = id ∧ Ready status then some .running else status
  | .pauseSession k => if k = id ∧ status.isSome then some .paused else status
  | .resumeSession k => if k = id ∧ status = some .paused then some .running else status
  | .cancelSession k => if k = id then none else status

theorem status_eq_some {status : SessionStatus} :
    s.status id = some status ↔ ∃ session, s.activeSessions.lookup id = some session ∧
      session.status = status :=
  Option.map_eq_some_iff

theorem getSessionStatus_ok {status : SessionStatus} :
    s.getSessionStatus id = .ok status ↔ s.status id = some status := by
  unfold getSessionStatus PipelineExecutor.status
  cases s.activeSessions.lookup id <;> simp

theorem isSome_status : (s.status id).isSome ↔ id ∈ s.activeSessions := by
  rw [status, Option.isSome_map, AList.lookup_isSome]

/-- A session whose status is overwritten, among the others. -/
theorem status_modify {k : SessionId} {f : SessionState → SessionState} {new : SessionStatus}
    (hf : ∀ session, (f session).status = new) :
    status ⟨s.activeSessions.modify k f⟩ id =
      if k = id ∧ (s.status id).isSome then some new else s.status id := by
  unfold status
  by_cases hkey : k = id
  · subst hkey
    rw [HashMap.lookup_modify]
    cases s.activeSessions.lookup k <;> simp [hf]
  · rw [HashMap.lookup_modify_ne (Ne.symm hkey), if_neg fun h => hkey h.1]

theorem status_setStatus {k : SessionId} {new : SessionStatus} :
    (s.setStatus k new).status id =
      if k = id ∧ (s.status id).isSome then some new else s.status id :=
  status_modify fun _ => rfl

/-! ## Calls -/

theorem pauseSession_ok : (s.pauseSession id).1 = .ok () ↔ (s.status id).isSome := by
  unfold pauseSession
  rw [isSome_status]
  split <;> simp_all

theorem resumeSession_ok : (s.resumeSession id).1 = .ok () ↔ s.status id = some .paused := by
  unfold resumeSession status
  cases s.activeSessions.lookup id with
  | none => simp
  | some session => by_cases hpaused : session.status = .paused <;> simp [hpaused]

theorem cancelSession_ok : (s.cancelSession id).1 = .ok () ↔ (s.status id).isSome := by
  unfold cancelSession
  rw [isSome_status]
  split <;> simp_all

section
variable {request : ExecutionRequest} {clock : Nat → Nat → DateTime} {elapsed : Duration}

theorem status_of_lookup {session : SessionState} (h : s.activeSessions.lookup id = some session) :
    s.status id = some session.status := by
  rw [status, h]
  rfl

/-- A session that is not ready refuses, and stays as it is. -/
theorem execute_of_not_ready (h : ¬ Ready (s.status request.sessionId)) :
    ∃ error, s.execute overflowChecks request clock elapsed = (.err error, s) := by
  unfold execute
  split
  · exact ⟨_, rfl⟩
  · next session hsession =>
    rw [status_of_lookup hsession, Ready, Option.some.injEq, Option.some.injEq, not_or] at h
    exact ⟨_, if_pos h⟩

theorem ready_of_execute {result : ExecutionResult}
    (h : (s.execute overflowChecks request clock elapsed).1 = .ok result) :
    Ready (s.status request.sessionId) := by
  by_contra hready
  obtain ⟨error, herror⟩ := @execute_of_not_ready overflowChecks s request clock elapsed hready
  rw [herror] at h
  cases h

/-- A session that is ready generates, and runs from then on. -/
theorem execute_of_ready (h : Ready (s.status request.sessionId)) :
    ∃ session, s.activeSessions.lookup request.sessionId = some session ∧
      s.execute overflowChecks request clock elapsed =
        (do
          let tokens ← (generate overflowChecks session.stageStates request clock).1
          pure (request.result elapsed tokens),
          ⟨s.activeSessions.modify request.sessionId fun old =>
            { old with
              status := .running
              stageStates := (generate overflowChecks session.stageStates request clock).2 }⟩) := by
  obtain ⟨session, hsession⟩ : ∃ session,
      s.activeSessions.lookup request.sessionId = some session := by
    rcases h with h | h
    all_goals
      obtain ⟨session, hsession, -⟩ := status_eq_some.1 h
      exact ⟨session, hsession⟩
  rw [status_of_lookup hsession, Ready, Option.some.injEq, Option.some.injEq] at h
  refine ⟨session, hsession, ?_⟩
  unfold execute
  rw [hsession]
  exact if_neg fun hnot => h.elim hnot.1 hnot.2

/-- A request for no tokens succeeds. -/
theorem execute_nothing (h : Ready (s.status id)) (clock : Nat → Nat → DateTime)
    (elapsed : Duration) :
    ∃ result, (s.execute overflowChecks ⟨id, [], 0, 0⟩ clock elapsed).1 = .ok result := by
  obtain ⟨session, -, hexecute⟩ := @execute_of_ready overflowChecks s ⟨id, [], 0, 0⟩ clock elapsed h
  have hgenerate : (generate overflowChecks session.stageStates ⟨id, [], 0, 0⟩ clock).1 =
      .ok [] := by
    unfold generate executePrefill
    cases session.stageStates with
    | nil => rfl
    | cons stage rest => simp [u32Arith, UInt32.size, decodeLoop]
  rw [hexecute, hgenerate]
  exact ⟨_, rfl⟩

end

/-! ## Steps -/

/-- **The executor follows the life of each session.** -/
theorem status_step (he : s.step overflowChecks e = some t) (id : SessionId) :
    t.status id = nextStatus id (s.status id) e := by
  cases e with
  | initializeSession k plan now =>
    cases he
    by_cases hkey : k = id
    · subst hkey
      simp [nextStatus, initializeSession, status]
    · simp [nextStatus, initializeSession, status, hkey, AList.lookup_insert_ne (Ne.symm hkey)]
  | execute request clock elapsed =>
    cases he
    by_cases hready : Ready (s.status request.sessionId)
    · obtain ⟨session, hsession, hexecute⟩ :=
        @execute_of_ready overflowChecks s request clock elapsed hready
      simp only [hexecute, nextStatus]
      refine (status_modify fun _ => by rfl).trans (if_congr (and_congr_right ?_) rfl rfl)
      rintro rfl
      exact iff_of_true (isSome_status.2 (HashMap.mem_of_lookup hsession)) hready
    · obtain ⟨error, herror⟩ := @execute_of_not_ready overflowChecks s request clock elapsed hready
      rw [herror, nextStatus, if_neg]
      rintro ⟨rfl, h⟩
      exact hready h
  | pauseSession k =>
    cases he
    unfold pauseSession
    split
    · exact status_setStatus
    · next hmem =>
      refine (if_neg ?_).symm
      rintro ⟨rfl, h⟩
      exact hmem (isSome_status.1 h)
  | resumeSession k =>
    cases he
    by_cases hpaused : s.status k = some .paused
    · obtain ⟨session, hsession, hstatus⟩ := status_eq_some.1 hpaused
      have hresume : s.resumeSession k = (.ok (), s.setStatus k .running) := by
        simp only [resumeSession, hsession, hstatus, if_true]
      rw [hresume]
      refine status_setStatus.trans (if_congr (and_congr_right ?_) rfl rfl)
      rintro rfl
      rw [hpaused]
      simp
    · have hresume : (s.resumeSession k).2 = s := by
        unfold resumeSession
        split
        · next session hsession =>
          rw [status_of_lookup hsession, Option.some.injEq] at hpaused
          rw [if_neg hpaused]
        · rfl
      rw [hresume]
      refine (if_neg ?_).symm
      rintro ⟨rfl, h⟩
      exact hpaused h
  | cancelSession k =>
    cases he
    simp only [cancelSession, nextStatus]
    split
    · by_cases hkey : k = id
      · simp [status, hkey]
      · simp [status, hkey, AList.lookup_erase_ne (Ne.symm hkey)]
    · next hmem =>
      by_cases hkey : k = id
      · subst hkey
        rw [if_pos rfl, status, AList.lookup_eq_none.2 hmem]
        rfl
      · rw [if_neg hkey]

/-! ## What keeps a session paused -/

/-- A successful pause. -/
def Pauses (id : SessionId) (s : PipelineExecutor) (e : ExecutorEvent) : Prop :=
  e = .pauseSession id ∧ (s.pauseSession id).1 = .ok ()

/-- A successful `resume_session` or `cancel_session`. -/
def Frees (id : SessionId) (s : PipelineExecutor) (e : ExecutorEvent) : Prop :=
  (e = .resumeSession id ∧ (s.resumeSession id).1 = .ok ()) ∨
    (e = .cancelSession id ∧ (s.cancelSession id).1 = .ok ())

/-- No request for the session succeeds. -/
def Refuses (overflowChecks : Bool) (id : SessionId) (s : PipelineExecutor) : Prop :=
  ∀ request clock elapsed result, request.sessionId = id →
    (s.execute overflowChecks request clock elapsed).1 ≠ .ok result

/-- From a pause until the session is freed, it refuses every request. -/
def StaysPaused (overflowChecks : Bool) (s₀ : PipelineExecutor) (es : List ExecutorEvent) : Prop :=
  ∀ pre post s id, es = pre ++ post → Lts.exec (step overflowChecks) s₀ pre = some s →
    Lts.Since (step overflowChecks) (Pauses id) (Frees id) s₀ pre → Refuses overflowChecks id s

/-- The call initializes no session under the id of a paused one. -/
def SparesPaused (s : PipelineExecutor) (e : ExecutorEvent) : Prop :=
  ∀ id plan now, e = .initializeSession id plan now → s.status id ≠ some .paused

/-- Whatever else comes, a session that is not freed stays paused. -/
theorem paused_step (he : s.step overflowChecks e = some t) (hpaused : s.status id = some .paused)
    (hfree : ¬ Frees id s e) (hspares : SparesPaused s e) : t.status id = some .paused := by
  rw [status_step he, hpaused]
  cases e with
  | initializeSession k plan now =>
    have hkey : k ≠ id := fun hkey => hspares k plan now rfl (hkey ▸ hpaused)
    exact if_neg hkey
  | execute request clock elapsed =>
    refine if_neg fun h => ?_
    rcases h.2 with h | h <;> cases h
  | pauseSession k => exact ite_self _
  | resumeSession k =>
    have hkey : k ≠ id := by
      rintro rfl
      exact hfree (.inl ⟨rfl, resumeSession_ok.2 hpaused⟩)
    exact if_neg fun h => hkey h.1
  | cancelSession k =>
    have hkey : k ≠ id := by
      rintro rfl
      exact hfree (.inr ⟨rfl, cancelSession_ok.2 (by rw [hpaused]; rfl)⟩)
    exact if_neg hkey

/-- A session is paused by a pause, or was before the call, which did not free it. -/
theorem paused_cases (he : s.step overflowChecks e = some t)
    (hpaused : t.status id = some .paused) :
    Pauses id s e ∨ s.status id = some .paused ∧ ¬ Frees id s e := by
  rw [status_step he] at hpaused
  cases e with
  | initializeSession k plan now =>
    simp only [nextStatus] at hpaused
    split at hpaused
    · cases hpaused
    · exact .inr ⟨hpaused, by simp [Frees]⟩
  | execute request clock elapsed =>
    simp only [nextStatus] at hpaused
    split at hpaused
    · cases hpaused
    · exact .inr ⟨hpaused, by simp [Frees]⟩
  | pauseSession k =>
    simp only [nextStatus] at hpaused
    split at hpaused
    · next h =>
      obtain ⟨rfl, hsome⟩ := h
      exact .inl ⟨rfl, pauseSession_ok.2 hsome⟩
    · exact .inr ⟨hpaused, by simp [Frees]⟩
  | resumeSession k =>
    simp only [nextStatus] at hpaused
    split at hpaused
    · cases hpaused
    · next hkey =>
      refine .inr ⟨hpaused, ?_⟩
      rintro (⟨⟨⟩, hok⟩ | ⟨⟨⟩, -⟩)
      exact hkey ⟨rfl, hpaused⟩
  | cancelSession k =>
    simp only [nextStatus] at hpaused
    split at hpaused
    · cases hpaused
    · next hkey =>
      refine .inr ⟨hpaused, ?_⟩
      rintro (⟨⟨⟩, -⟩ | ⟨⟨⟩, -⟩)
      exact hkey rfl

/-! ## Runs -/

section
variable {es : List ExecutorEvent} (hes : Lts.exec (step overflowChecks) new es = some s)
include hes

/-- A paused session was paused by a call, and not freed since. -/
theorem since_of_paused (hpaused : s.status id = some .paused) :
    Lts.Since (step overflowChecks) (Pauses id) (Frees id) new es := by
  refine Lts.exec_induction (P := fun es (s : PipelineExecutor) => s.status id = some .paused →
    Lts.Since (step overflowChecks) (Pauses id) (Frees id) new es)
    (fun hpaused => ?_) (fun es s e t hes ih he hpaused => ?_) hes hpaused
  · cases hpaused
  · rw [Lts.since_concat hes he]
    exact (paused_cases he hpaused).imp_right fun h => ⟨ih h.1, h.2⟩

/-- And it stays paused until then, if no call initializes a session in its place. -/
theorem paused_of_since (hspares : Lts.Meets (step overflowChecks) SparesPaused new es)
    (hsince : Lts.Since (step overflowChecks) (Pauses id) (Frees id) new es) :
    s.status id = some .paused := by
  refine Lts.exec_induction (P := fun es (s : PipelineExecutor) =>
    Lts.Meets (step overflowChecks) SparesPaused new es →
    Lts.Since (step overflowChecks) (Pauses id) (Frees id) new es → s.status id = some .paused)
    (fun _ hsince => hsince.elim) (fun es s e t hes ih he hmeets hsince => ?_) hes hspares hsince
  obtain ⟨hmeets, hspares⟩ := (Lts.meets_concat hes he).1 hmeets
  obtain ⟨rfl, hok⟩ | ⟨hsince, hfree⟩ := (Lts.since_concat hes he).1 hsince
  · rw [status_step he, nextStatus, if_pos ⟨rfl, pauseSession_ok.1 hok⟩]
  · exact paused_step he (ih hmeets hsince) hfree hspares

end

/-- **A paused session stays paused** along a run exactly if no `initialize_session` of the run is
for the id of a paused session. -/
theorem staysPaused_iff (overflowChecks : Bool) (es : List ExecutorEvent) :
    StaysPaused overflowChecks new es ↔
      Lts.Meets (step overflowChecks) SparesPaused new es := by
  constructor
  · refine fun hstays => Lts.meets_iff.2 fun pre e post s t hes hpre he => ?_
    rintro id plan now rfl hpaused
    -- the new session takes requests
    have hsince := (Lts.since_concat hpre he).2
      (.inr ⟨since_of_paused hpre hpaused, by simp [Frees]⟩)
    have hpre' := Lts.exec_concat.2 ⟨s, hpre, he⟩
    have hready : t.status id = some .initializing := by
      rw [status_step he, nextStatus, if_pos rfl]
    obtain ⟨result, hok⟩ := @execute_nothing overflowChecks t id (.inl hready)
      (fun _ _ => now) ⟨0, 1⟩
    exact hstays _ post t id (by simp [hes]) hpre' hsince _ _ _ result rfl hok
  · rintro hmeets pre post s id rfl hpre hsince request clock elapsed result rfl hok
    have hpaused := paused_of_since hpre hmeets.initial hsince
    rcases ready_of_execute hok with h | h <;> cases hpaused.symm.trans h

/-- A session is initialized, paused, and initialized again. -/
def pauseAndInitialize : List ExecutorEvent :=
  let plan : ExecutionPlan :=
    ⟨"model", .pipeline, ⟨5.0, 50.0, 15.0⟩, [⟨0, ⟨1⟩, "cpu:0", [0], 1048576⟩],
      ⟨.stageLocal, 67108864⟩⟩
  [.initializeSession ⟨7⟩ plan ⟨0⟩, .pauseSession ⟨7⟩, .initializeSession ⟨7⟩ plan ⟨1⟩]

theorem not_staysPaused_initialize : ¬ ∀ es : List ExecutorEvent, StaysPaused true new es := by
  intro h
  have hsince : Lts.Since (step true) (Pauses ⟨7⟩) (Frees ⟨7⟩) new pauseAndInitialize := by
    refine ⟨_, rfl, .inr ⟨_, rfl, .inl ⟨⟨rfl, rfl⟩, fun t ht => ⟨?_, trivial⟩⟩⟩⟩
    simp [Frees]
  obtain ⟨s, hs, result, hok⟩ : ∃ s, Lts.exec (step true) new pauseAndInitialize = some s ∧
      ∃ result, (s.execute true ⟨⟨7⟩, [1], 10, 0.7⟩ (fun _ _ => ⟨2⟩) ⟨1, 0⟩).1 = .ok result :=
    ⟨_, rfl, _, rfl⟩
  exact h pauseAndInitialize _ [] s ⟨7⟩ (List.append_nil _).symm hs hsince _ _ _ result rfl hok

end TensorGrid.PipelineExecutor
