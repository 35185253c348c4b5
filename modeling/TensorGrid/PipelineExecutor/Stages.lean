import TensorGrid.PipelineExecutor.Generation
import TensorGrid.PipelineExecutor.Independence

/-!
# The stages of a session

Whatever calls are made, the stages of a session are those of its plan, and they are `InStep`: none
has run, or all have completed a prefill, or all have decoded. Only a build with overflow checks can
leave them otherwise, with the first stage executing, after a panic in the prefill (`Stuck`).

* `generate_cases`: what a request does to the stages; a request that succeeds levels them.
* `Sound.next`: every call keeps the session sound.
-/

namespace TensorGrid

open Rust

/-- The stage as `initialize_session` has made it. -/
def StageState.reset (stage : StageState) : StageState :=
  { stage with status := .idle, lastExecution := none }

/-- The session as `initialize_session` has made it. -/
def SessionState.reset (session : SessionState) : SessionState :=
  { session with status := .initializing, stageStates := session.stageStates.map StageState.reset }

namespace PipelineExecutor

/-- No stage has run. -/
def Idle (stages : List StageState) : Prop :=
  ∀ stage ∈ stages, stage.status = .idle ∧ stage.lastExecution = none

/-- All stages have run, and have this status. -/
def Level (status : StageStatus) (stages : List StageState) : Prop :=
  ∀ stage ∈ stages, stage.status = status ∧ stage.lastExecution.isSome

def InStep (stages : List StageState) : Prop :=
  Idle stages ∨ Level .completed stages ∨ Level .ready stages

/-- The first stage has been left executing. -/
def Stuck (stages : List StageState) : Prop :=
  ∃ stage rest, stages = { stage with status := .executing } :: rest ∧ InStep (stage :: rest)

/-! ## Generation -/

section
variable {overflowChecks : Bool} {status : StageStatus} {stages : List StageState}

theorem level_runStages (clock : Nat → DateTime) :
    Level status (runStages status clock stages) := by
  intro stage hstage
  obtain ⟨i, hi, rfl⟩ := List.mem_mapIdx.1 hstage
  exact ⟨rfl, rfl⟩

theorem map_reset_runStages (clock : Nat → DateTime) :
    (runStages status clock stages).map StageState.reset = stages.map StageState.reset := by
  refine List.ext_getElem? fun i => ?_
  simp only [runStages, List.getElem?_map, List.getElem?_mapIdx, Option.map_map]
  rfl

theorem u32Arith_cases (overflowChecks : Bool) (n : Nat) :
    (∃ token, u32Arith overflowChecks n = .ok token) ∨
      u32Arith overflowChecks n = .panic ∧ overflowChecks = true := by
  unfold u32Arith
  split
  · next h => exact .inr ⟨rfl, h.1⟩
  · exact .inl ⟨_, rfl⟩

theorem executePrefill_cases (overflowChecks : Bool) (stages : List StageState)
    (tokens : List UInt32) (clock : Nat → DateTime) :
    executePrefill overflowChecks stages tokens clock =
      (.ok tokens, runStages .completed clock stages) ∨
    overflowChecks = true ∧ ∃ stage rest, stages = stage :: rest ∧
      executePrefill overflowChecks stages tokens clock =
        (.panic, { stage with status := .executing } :: rest) := by
  cases stages with
  | nil => exact .inl rfl
  | cons stage rest =>
    obtain ⟨token, h⟩ | ⟨h, hchecks⟩ :=
      u32Arith_cases overflowChecks ((UInt32.ofNat tokens.length).toNat * 2)
    · left
      simp only [executePrefill, h]
    · right
      refine ⟨hchecks, stage, rest, rfl, ?_⟩
      simp only [executePrefill, h]

theorem executeDecode_cases (overflowChecks : Bool) (stages : List StageState)
    (context : List UInt32) (clock : Nat → DateTime) :
    (∃ token, executeDecode overflowChecks stages context clock =
      (.ok token, runStages .ready clock stages)) ∨
    executeDecode overflowChecks stages context clock =
      (.panic, runStages .ready clock stages) ∧ overflowChecks = true := by
  unfold executeDecode
  obtain ⟨token, h⟩ | ⟨h, hchecks⟩ :=
    u32Arith_cases overflowChecks ((context.getLast?.getD 0).toNat + 1)
  · rw [h]
    exact .inl ⟨_, rfl⟩
  · rw [h]
    exact .inr ⟨rfl, hchecks⟩

/-- **The decode loop**: after one round all stages are ready. -/
theorem decodeLoop_cases (overflowChecks : Bool) (clock : Nat → Nat → DateTime) (n r : Nat)
    (stages : List StageState) (tokens generated : List UInt32) :
    let result := decodeLoop overflowChecks clock n r stages tokens generated
    result.2.map StageState.reset = stages.map StageState.reset ∧
      (n = 0 ∧ result = (.ok generated, stages) ∨ Level .ready result.2 ∧
        ((∃ tokens, result.1 = .ok tokens ∧ tokens ≠ []) ∨
          result.1 = .panic ∧ overflowChecks = true)) := by
  intro result
  subst result
  induction n generalizing r stages tokens generated with
  | zero => exact ⟨rfl, .inl ⟨rfl, rfl⟩⟩
  | succ n ih =>
    have hlevel : Level .ready (runStages .ready (clock r) stages) := level_runStages _
    obtain ⟨token, h⟩ | ⟨h, hchecks⟩ :=
      executeDecode_cases overflowChecks stages tokens (clock r)
    · simp only [decodeLoop, h]
      split
      · exact ⟨map_reset_runStages _, .inr ⟨hlevel, .inl ⟨_, rfl, by simp⟩⟩⟩
      · obtain ⟨hreset, hcases⟩ := ih (r + 1) (runStages .ready (clock r) stages)
          (tokens ++ [token]) (generated ++ [token])
        refine ⟨hreset.trans (map_reset_runStages _), .inr ?_⟩
        obtain ⟨-, hend⟩ | hready := hcases
        · rw [hend]
          exact ⟨hlevel, .inl ⟨_, rfl, by simp⟩⟩
        · exact hready
    · simp only [decodeLoop, h]
      exact ⟨map_reset_runStages _, .inr ⟨hlevel, .inr ⟨trivial, hchecks⟩⟩⟩

/-- **What a request does to the stages**: it levels them if it succeeds. -/
theorem generate_cases (overflowChecks : Bool) (stages : List StageState)
    (request : ExecutionRequest) (clock : Nat → Nat → DateTime) :
    let result := generate overflowChecks stages request clock
    result.2.map StageState.reset = stages.map StageState.reset ∧
      ((∃ tokens, result.1 = .ok tokens ∧
          Level (if tokens = [] then .completed else .ready) result.2) ∨
        result.1 = .panic ∧ overflowChecks = true ∧ (Level .ready result.2 ∨
          ∃ stage rest, stages = stage :: rest ∧
            result.2 = { stage with status := .executing } :: rest)) := by
  intro result
  subst result
  obtain h | ⟨hchecks, stage, rest, rfl, h⟩ :=
    executePrefill_cases overflowChecks stages request.inputTokens (clock 0)
  · simp only [generate, h]
    obtain ⟨hreset, hcases⟩ := decodeLoop_cases overflowChecks clock
      request.maxTokens.toNat 1 (runStages .completed (clock 0) stages)
      (request.inputTokens ++ request.inputTokens) []
    refine ⟨hreset.trans (map_reset_runStages _), ?_⟩
    obtain ⟨-, hend⟩ | ⟨hready, ⟨tokens, hok, hne⟩ | ⟨hpanic, hchecks⟩⟩ := hcases
    · rw [hend]
      exact .inl ⟨[], rfl, by simpa using level_runStages _⟩
    · exact .inl ⟨tokens, hok, by rwa [if_neg hne]⟩
    · exact .inr ⟨hpanic, hchecks, .inl hready⟩
  · simp only [generate, h]
    exact ⟨rfl, .inr ⟨trivial, hchecks, .inr ⟨stage, rest, rfl, rfl⟩⟩⟩

end

/-! ## Sound sessions -/

/-- The session is the one of its plan, and its stages are in step. -/
structure Sound (overflowChecks : Bool) (id : SessionId) (session : SessionState) : Prop where
  reset : session.reset = freshSession id session.plan session.createdAt
  status : session.status = .initializing ∧ Idle session.stageStates ∨
    session.status = .running ∨ session.status = .paused
  stages : InStep session.stageStates ∨ overflowChecks = true ∧ Stuck session.stageStates

section
variable {overflowChecks : Bool} {id : SessionId} {session session' : SessionState}

theorem idle_freshSession (id : SessionId) (plan : ExecutionPlan) (now : DateTime) :
    Idle (freshSession id plan now).stageStates := by
  intro stage hstage
  obtain ⟨_, -, rfl⟩ := List.mem_map.1 hstage
  exact ⟨rfl, rfl⟩

theorem sound_freshSession (id : SessionId) (plan : ExecutionPlan) (now : DateTime) :
    Sound overflowChecks id (freshSession id plan now) := by
  have hidle := idle_freshSession id plan now
  refine ⟨?_, .inl ⟨rfl, hidle⟩, .inl (.inl hidle)⟩
  simp only [SessionState.reset, freshSession, List.map_map]
  rfl

/-- A change of the status only. -/
theorem Sound.setStatus (h : Sound overflowChecks id session) {status : SessionStatus}
    (hstatus : status = .running ∨ status = .paused) :
    Sound overflowChecks id { session with status } :=
  ⟨h.reset, .inr hstatus, h.stages⟩

theorem Sound.generate (h : Sound overflowChecks id session) (request : ExecutionRequest)
    (clock : Nat → Nat → DateTime) :
    Sound overflowChecks id { session with
      status := .running
      stageStates := (generate overflowChecks session.stageStates request clock).2 } := by
  obtain ⟨hreset, hcases⟩ := generate_cases overflowChecks session.stageStates request clock
  refine ⟨?_, .inr (.inl rfl), ?_⟩
  · have hsession := h.reset
    simp only [SessionState.reset] at hsession ⊢
    rw [hreset]
    exact hsession
  · obtain ⟨tokens, -, hlevel⟩ | ⟨-, hchecks, hready | ⟨stage, rest, hstages, hstuck⟩⟩ := hcases
    · split at hlevel
      · exact .inl (.inr (.inl hlevel))
      · exact .inl (.inr (.inr hlevel))
    · exact .inl (.inr (.inr hready))
    · simp only [hstuck]
      refine .inr ⟨hchecks, ?_⟩
      -- a stage that was stuck already stays so
      obtain hin | ⟨-, stage', rest', heq, hin⟩ := h.stages
      · exact ⟨stage, rest, rfl, hstages ▸ hin⟩
      · obtain ⟨rfl, rfl⟩ := List.cons.inj (hstages.symm.trans heq)
        exact ⟨stage', rest, rfl, hin⟩

/-- **Every call keeps a session sound.** -/
theorem Sound.next {before : Option SessionState} {e : ExecutorEvent}
    (h : ∀ session, before = some session → Sound overflowChecks e.sessionId session)
    (hnext : nextSession overflowChecks before e = some session') :
    Sound overflowChecks e.sessionId session' := by
  cases e with
  | initializeSession k plan now =>
    cases hnext
    exact sound_freshSession k plan now
  | execute request clock elapsed =>
    obtain ⟨session, hsession, rfl⟩ := Option.map_eq_some_iff.1 hnext
    split
    · exact (h session hsession).generate request clock
    · exact h session hsession
  | pauseSession k =>
    obtain ⟨session, hsession, rfl⟩ := Option.map_eq_some_iff.1 hnext
    exact (h session hsession).setStatus (.inr rfl)
  | resumeSession k =>
    obtain ⟨session, hsession, rfl⟩ := Option.map_eq_some_iff.1 hnext
    split
    · exact (h session hsession).setStatus (.inl rfl)
    · exact h session hsession
  | cancelSession k => cases hnext

end

theorem sound_of_exec {overflowChecks : Bool} {es : List ExecutorEvent} {s : PipelineExecutor}
    (h : Lts.exec (step overflowChecks) new es = some s) {id : SessionId} {session : SessionState}
    (hl : s.activeSessions.lookup id = some session) : Sound overflowChecks id session := by
  refine Lts.exec_inv (I := fun s : PipelineExecutor => ∀ id session,
    s.activeSessions.lookup id = some session → Sound overflowChecks id session)
    (fun s e t hs he id session hl => ?_) h (fun id session hl => by cases hl) id session hl
  by_cases hid : id = e.sessionId
  · subst hid
    rw [lookup_step he] at hl
    exact Sound.next (hs e.sessionId) hl
  · rw [lookup_step_ne he hid] at hl
    exact hs id session hl

/-- **The stages of every session are those of its plan and in step**, in every state that calls can
reach, up to a first stage left executing by a checked prefill; and a request that succeeds leaves
them all ready, or all completed if it was for no tokens. -/
theorem stages_sound (overflowChecks : Bool) (es : List ExecutorEvent) (s : PipelineExecutor)
    (h : Lts.exec (step overflowChecks) new es = some s) :
    (∀ id session, s.activeSessions.lookup id = some session →
      Sound overflowChecks id session) ∧
    ∀ request clock elapsed result,
      (s.execute overflowChecks request clock elapsed).1 = .ok result →
      ∃ session, (s.execute overflowChecks request clock elapsed).2.activeSessions.lookup
          request.sessionId = some session ∧ session.status = .running ∧
        Level (if result.tokens = [] then .completed else .ready) session.stageStates := by
  refine ⟨fun id session => sound_of_exec h, fun request clock elapsed result hok => ?_⟩
  obtain ⟨session, hsession, hexecute⟩ := execute_of_ready (ready_of_execute hok)
  rw [hexecute] at hok ⊢
  obtain ⟨tokens, hgenerate, hresult⟩ := Outcome.bind_ok.1 hok
  cases hresult
  refine ⟨_, by rw [HashMap.lookup_modify, hsession]; rfl, rfl, ?_⟩
  obtain ⟨-, ⟨tokens', htokens, hlevel⟩ | ⟨hpanic, -⟩⟩ :=
    generate_cases overflowChecks session.stageStates request clock
  · cases hgenerate.symm.trans htokens
    exact hlevel
  · cases hgenerate.symm.trans hpanic

/-- A session of one stage is initialized and runs a request. -/
def initializeAndExecute : List ExecutorEvent :=
  [.initializeSession ⟨7⟩ ⟨"model", .pipeline, ⟨5.0, 50.0, 15.0⟩,
    [⟨0, ⟨1⟩, "cpu:0", [0], 1048576⟩], ⟨.stageLocal, 67108864⟩⟩ ⟨0⟩,
    .execute ⟨⟨7⟩, [1], 1, 0.7⟩ (fun _ _ => ⟨2⟩) ⟨1, 0⟩]

theorem stages_sound_initializeAndExecute : ∃ s session,
    Lts.exec (step true) new initializeAndExecute = some s ∧
      s.activeSessions.lookup ⟨7⟩ = some session ∧ Sound true ⟨7⟩ session := by
  obtain ⟨s, hs, hsome⟩ : ∃ s, Lts.exec (step true) new initializeAndExecute = some s ∧
      (s.activeSessions.lookup ⟨7⟩).isSome := ⟨_, rfl, rfl⟩
  obtain ⟨session, hl⟩ := Option.isSome_iff_exists.1 hsome
  exact ⟨s, session, hs, hl, (stages_sound true _ s hs).1 ⟨7⟩ session hl⟩

end PipelineExecutor

end TensorGrid
