import TensorGrid.PipelineExecutor.Generation

/-!
# What the decoder sees

`recordExecute` is `execute` with a record of its calls of `execute_decode` (`fst_recordExecute`).
The prefill phase returns the tokens that it was given, and `execute` puts them behind the same
tokens, so that every call sees the input twice. What has been generated follows once
(`mem_recordLoop`). The context is the conversation exactly where there is no input or no call
(`seesOnce_iff`).
-/

namespace TensorGrid.PipelineExecutor

open Rust

/-- A call of `execute_decode`: what it sees, and what has been generated before. -/
structure DecodeCall where
  context : List UInt32
  generatedTokens : List UInt32
deriving DecidableEq, Repr

section
variable (overflowChecks : Bool)

/-- `decodeLoop`, and its calls. -/
def recordLoop (clock : Nat → Nat → DateTime) (n r : Nat) (stages : List StageState)
    (tokens generatedTokens : List UInt32) :
    (Outcome PipelineError (List UInt32) × List StageState) × List DecodeCall :=
  match n with
  | 0 => ((.ok generatedTokens, stages), [])
  | n + 1 =>
    let call : DecodeCall := ⟨tokens, generatedTokens⟩
    match executeDecode overflowChecks stages tokens (clock r) with
    | (.ok decodeResult, stages) =>
      if decodeResult = 2 then ((.ok (generatedTokens ++ [decodeResult]), stages), [call])
      else
        let (result, calls) := recordLoop clock n (r + 1) stages (tokens ++ [decodeResult])
          (generatedTokens ++ [decodeResult])
        (result, call :: calls)
    | (.err e, stages) => ((.err e, stages), [call])
    | (.panic, stages) => ((.panic, stages), [call])

/-- `generate`, and its calls. -/
def recordGenerate (stages : List StageState) (request : ExecutionRequest)
    (clock : Nat → Nat → DateTime) :
    (Outcome PipelineError (List UInt32) × List StageState) × List DecodeCall :=
  match executePrefill overflowChecks stages request.inputTokens (clock 0) with
  | (.ok prefillResult, stages) =>
    recordLoop overflowChecks clock request.maxTokens.toNat 1 stages
      (request.inputTokens ++ prefillResult) []
  | (.err e, stages) => ((.err e, stages), [])
  | (.panic, stages) => ((.panic, stages), [])

/-- `execute`, and its calls. -/
def recordExecute (s : PipelineExecutor) (request : ExecutionRequest)
    (clock : Nat → Nat → DateTime) (elapsed : Duration) :
    (Outcome PipelineError ExecutionResult × PipelineExecutor) × List DecodeCall :=
  match s.activeSessions.lookup request.sessionId with
  | none => ((.err (.sessionNotFound request.sessionId), s), [])
  | some session =>
    if session.status ≠ .initializing ∧ session.status ≠ .running then
      ((.err (.sessionNotReady ("Session status: " ++ session.status.debug)), s), [])
    else
      let ((generated, stageStates), calls) :=
        recordGenerate overflowChecks session.stageStates request clock
      ((do
        let tokens ← generated
        pure (request.result elapsed tokens),
        { s with activeSessions := s.activeSessions.modify request.sessionId fun session =>
            { session with status := .running, stageStates } }), calls)

/-- Each call sees the input and the tokens that were generated before it, once. -/
def SeesOnce (s : PipelineExecutor) (request : ExecutionRequest) (clock : Nat → Nat → DateTime)
    (elapsed : Duration) : Prop :=
  ∀ i (call : DecodeCall),
    (recordExecute overflowChecks s request clock elapsed).2[i]? = some call →
    call.generatedTokens.length = i ∧
      call.context = request.inputTokens ++ call.generatedTokens

/-- The call does not come to the decoder: the session refuses, no token is asked for, or the
prefill phase panics. -/
def DecodesNothing (s : PipelineExecutor) (request : ExecutionRequest) : Prop :=
  ¬ Ready (s.status request.sessionId) ∨ request.maxTokens = 0 ∨
    ∃ session, s.activeSessions.lookup request.sessionId = some session ∧
      PrefillOverflows overflowChecks session.stageStates request.inputTokens

end

variable {overflowChecks : Bool} {stages : List StageState} {request : ExecutionRequest}
  {clock : Nat → Nat → DateTime}

/-! ## The record -/

theorem fst_recordLoop {n r : Nat} {tokens generatedTokens : List UInt32} :
    (recordLoop overflowChecks clock n r stages tokens generatedTokens).1 =
      decodeLoop overflowChecks clock n r stages tokens generatedTokens := by
  induction n generalizing r stages tokens generatedTokens with
  | zero => rfl
  | succ n ih =>
    simp only [recordLoop, decodeLoop]
    obtain ⟨result, stages'⟩ := executeDecode overflowChecks stages tokens (clock r)
    cases result with
    | ok token =>
      simp only
      split
      · rfl
      · exact ih
    | err e => rfl
    | panic => rfl

theorem fst_recordGenerate : (recordGenerate overflowChecks stages request clock).1 =
    generate overflowChecks stages request clock := by
  unfold recordGenerate generate
  obtain ⟨result, stages'⟩ :=
    executePrefill overflowChecks stages request.inputTokens (clock 0)
  cases result with
  | ok prefillResult => exact fst_recordLoop
  | err e => rfl
  | panic => rfl

/-- **The record is one of the call itself.** -/
theorem fst_recordExecute (s : PipelineExecutor) (request : ExecutionRequest)
    (clock : Nat → Nat → DateTime) (elapsed : Duration) :
    (recordExecute overflowChecks s request clock elapsed).1 =
      s.execute overflowChecks request clock elapsed := by
  unfold recordExecute execute
  cases s.activeSessions.lookup request.sessionId with
  | none => rfl
  | some session =>
    simp only [← fst_recordGenerate]
    split <;> rfl

/-! ## The contexts -/

section
variable {n r : Nat} {tokens generatedTokens : List UInt32}

/-- A round calls the decoder once, and leaves the rest to the loop. -/
theorem snd_recordLoop_succ :
    ∃ calls, (recordLoop overflowChecks clock (n + 1) r stages tokens generatedTokens).2 =
        ⟨tokens, generatedTokens⟩ :: calls ∧
      (calls = [] ∨ ∃ stages' token, calls = (recordLoop overflowChecks clock n (r + 1) stages'
        (tokens ++ [token]) (generatedTokens ++ [token])).2) := by
  simp only [recordLoop]
  obtain ⟨result, stages'⟩ := executeDecode overflowChecks stages tokens (clock r)
  cases result with
  | ok token =>
    simp only
    split
    · exact ⟨[], rfl, .inl rfl⟩
    · exact ⟨_, rfl, .inr ⟨stages', token, rfl⟩⟩
  | err e => exact ⟨[], rfl, .inl rfl⟩
  | panic => exact ⟨[], rfl, .inl rfl⟩

/-- The context and the generated tokens grow alike. -/
theorem mem_recordLoop {i : Nat} {call : DecodeCall}
    (h : (recordLoop overflowChecks clock n r stages tokens generatedTokens).2[i]? = some call) :
    ∃ new, new.length = i ∧ call = ⟨tokens ++ new, generatedTokens ++ new⟩ := by
  induction n generalizing r stages tokens generatedTokens i with
  | zero => cases h
  | succ n ih =>
    obtain ⟨calls, hcalls, hrest⟩ := @snd_recordLoop_succ overflowChecks stages clock n r tokens
      generatedTokens
    rw [hcalls] at h
    cases i with
    | zero =>
      cases h
      exact ⟨[], rfl, by simp⟩
    | succ i =>
      obtain rfl | ⟨stages', token, rfl⟩ := hrest
      · cases h
      · obtain ⟨new, rfl, rfl⟩ := ih h
        exact ⟨token :: new, rfl, by simp⟩

end

section
variable {s : PipelineExecutor} {elapsed : Duration}

theorem snd_recordGenerate : (recordGenerate overflowChecks stages request clock).2 =
    if PrefillOverflows overflowChecks stages request.inputTokens then []
    else (recordLoop overflowChecks clock request.maxTokens.toNat 1
      (executePrefill overflowChecks stages request.inputTokens (clock 0)).2
      (request.inputTokens ++ request.inputTokens) []).2 := by
  unfold recordGenerate
  rw [executePrefill_eq]
  by_cases hover : PrefillOverflows overflowChecks stages request.inputTokens
  · simp only [if_pos hover]
  · simp only [if_neg hover]

theorem snd_recordExecute_of_not_ready (h : ¬ Ready (s.status request.sessionId)) :
    (recordExecute overflowChecks s request clock elapsed).2 = [] := by
  unfold recordExecute
  cases hsession : s.activeSessions.lookup request.sessionId with
  | none => rfl
  | some session =>
    rw [status_of_lookup hsession, Ready, Option.some.injEq, Option.some.injEq, not_or] at h
    simp only [if_pos h]

theorem snd_recordExecute_of_ready {session : SessionState}
    (hsession : s.activeSessions.lookup request.sessionId = some session)
    (h : Ready (s.status request.sessionId)) :
    (recordExecute overflowChecks s request clock elapsed).2 =
      (recordGenerate overflowChecks session.stageStates request clock).2 := by
  rw [status_of_lookup hsession, Ready, Option.some.injEq, Option.some.injEq] at h
  unfold recordExecute
  simp only [hsession]
  rw [if_neg fun hnot => h.elim hnot.1 hnot.2]

/-- The calls of a request: none, or those of the loop behind the doubled input. -/
theorem snd_recordExecute :
    (DecodesNothing overflowChecks s request ∧
        (recordExecute overflowChecks s request clock elapsed).2 = []) ∨
      ∃ n stages, ¬ DecodesNothing overflowChecks s request ∧
        (recordExecute overflowChecks s request clock elapsed).2 =
          (recordLoop overflowChecks clock (n + 1) 1 stages
            (request.inputTokens ++ request.inputTokens) []).2 := by
  by_cases hready : Ready (s.status request.sessionId)
  · obtain ⟨session, hsession, -⟩ :=
      @execute_of_ready overflowChecks s request clock elapsed hready
    rw [snd_recordExecute_of_ready hsession hready, snd_recordGenerate]
    by_cases hover : PrefillOverflows overflowChecks session.stageStates request.inputTokens
    · exact .inl ⟨.inr (.inr ⟨session, hsession, hover⟩), if_pos hover⟩
    · rw [if_neg hover]
      cases hmax : request.maxTokens.toNat with
      | zero => exact .inl ⟨.inr (.inl (UInt32.toNat_inj.1 hmax)), rfl⟩
      | succ n =>
        refine .inr ⟨n, _, ?_, rfl⟩
        rintro (hnot | hzero | ⟨session', hsession', hover'⟩)
        · exact hnot hready
        · simp [hzero] at hmax
        · cases hsession.symm.trans hsession'
          exact hover hover'
  · exact .inl ⟨.inl hready, snd_recordExecute_of_not_ready hready⟩

/-- **The decoder sees the conversation once exactly if there is no input, or it sees nothing.** -/
theorem seesOnce_iff : SeesOnce overflowChecks s request clock elapsed ↔
    request.inputTokens = [] ∨ DecodesNothing overflowChecks s request := by
  obtain ⟨hnothing, hcalls⟩ | ⟨n, stages, hdecodes, hcalls⟩ :=
    @snd_recordExecute overflowChecks request clock s elapsed
  · refine iff_of_true (fun i call hcall => ?_) (.inr hnothing)
    rw [hcalls] at hcall
    cases hcall
  · rw [or_iff_left hdecodes]
    unfold SeesOnce
    rw [hcalls]
    refine ⟨fun h => ?_, fun h i call hcall => ?_⟩
    · obtain ⟨calls, hfirst, -⟩ := @snd_recordLoop_succ overflowChecks stages clock n 1
        (request.inputTokens ++ request.inputTokens) []
      rw [hfirst] at h
      simpa using (h 0 _ rfl).2
    · obtain ⟨new, rfl, rfl⟩ := mem_recordLoop hcall
      simp [h]

/-- The first call sees 1, 2, 3, 1, 2, 3. -/
theorem not_seesOnce_twoStages :
    ¬ SeesOnce true twoStages ⟨⟨7⟩, [1, 2, 3], 10, 0.7⟩ (fun _ _ => ⟨2⟩) ⟨1, 0⟩ := by
  intro h
  have hfirst := h 0 ⟨[1, 2, 3, 1, 2, 3], []⟩ rfl
  exact absurd hfirst.2 (by decide)

end

end TensorGrid.PipelineExecutor
