import TensorGrid.PipelineExecutor.Sessions

/-!
# What is generated

`Continues` is what the loop in `execute` promises for its tokens: no more than were asked for, the
end token 2 only at their end, and each the successor of the one before it, modulo 1000. It holds
for the result of every call that succeeds (`continues_of_execute`).

The decoder adds before it reduces. What it has generated itself is below 1000, but the first token
that it adds to comes from the request: with overflow checks it panics on `u32::MAX`, and on nothing
else that a request of up to 2^30 tokens can bring (`execute_ne_panic_iff`).
-/

namespace TensorGrid.PipelineExecutor

open Rust

/-- What the decoder takes for the last token. -/
def lastToken (tokens : List UInt32) : UInt32 := tokens.getLast?.getD 0

/-- The tokens that follow `previous` if up to `maxTokens` are generated. -/
structure Continues (previous : UInt32) (maxTokens : Nat) (tokens : List UInt32) : Prop where
  length_le : tokens.length ≤ maxTokens
  endOnce : tokens.count 2 ≤ 1
  endLast : 2 ∉ tokens.dropLast
  ended : tokens.length < maxTokens → tokens.getLast? = some 2
  follows : (previous :: tokens).IsChain fun p token => token.toNat = (p.toNat + 1) % 1000

@[simp] theorem lastToken_concat (tokens : List UInt32) (token : UInt32) :
    lastToken (tokens ++ [token]) = token := by
  simp [lastToken]

@[simp] theorem lastToken_append_self (tokens : List UInt32) :
    lastToken (tokens ++ tokens) = lastToken tokens := by
  unfold lastToken
  rw [List.getLast?_append, Option.or_self]

theorem lastToken_eq_max {tokens : List UInt32} :
    lastToken tokens = 4294967295 ↔ tokens.getLast? = some 4294967295 := by
  unfold lastToken
  cases tokens.getLast? with
  | none => simp
  | some token => simp

namespace Continues

variable {previous token : UInt32} {n : Nat} {tokens : List UInt32}

protected theorem nil : Continues previous 0 [] := by
  refine ⟨Nat.le_refl 0, by simp, by simp, fun h => absurd h (Nat.lt_irrefl 0), ?_⟩
  exact .singleton previous

theorem single (h : (2 : UInt32).toNat = (previous.toNat + 1) % 1000) :
    Continues previous (n + 1) [2] := by
  refine ⟨by simp, by simp, by simp, fun _ => rfl, ?_⟩
  exact .cons_cons h (.singleton 2)

theorem cons (h : token.toNat = (previous.toNat + 1) % 1000) (hne : token ≠ 2)
    (htokens : Continues token n tokens) : Continues previous (n + 1) (token :: tokens) where
  length_le := Nat.succ_le_succ htokens.length_le
  endOnce := by
    rw [List.count_cons_of_ne hne]
    exact htokens.endOnce
  endLast := by
    cases tokens with
    | nil => simp
    | cons token' tokens =>
      rw [List.dropLast_cons_cons, List.mem_cons, not_or]
      exact ⟨hne.symm, htokens.endLast⟩
  ended := by
    intro hlen
    have hlast := htokens.ended (Nat.lt_of_succ_lt_succ hlen)
    rw [List.getLast?_cons, hlast]
    rfl
  follows := .cons_cons h htokens.follows

end Continues

/-! ## The two phases -/

variable {overflowChecks : Bool} {stages : List StageState} {tokens context : List UInt32}

section
variable {clock : Nat → DateTime}

/-- The time that a stage takes for the tokens does not fit, and this is checked. -/
def PrefillOverflows (overflowChecks : Bool) (stages : List StageState) (tokens : List UInt32) :
    Prop :=
  overflowChecks = true ∧ stages ≠ [] ∧ UInt32.size ≤ (UInt32.ofNat tokens.length).toNat * 2

instance : Decidable (PrefillOverflows overflowChecks stages tokens) :=
  inferInstanceAs (Decidable (_ ∧ _ ∧ _))

theorem executePrefill_fst : (executePrefill overflowChecks stages tokens clock).1 =
    if PrefillOverflows overflowChecks stages tokens then .panic else .ok tokens := by
  cases stages with
  | nil => simp [executePrefill, PrefillOverflows]
  | cons stage rest =>
    by_cases h : overflowChecks = true ∧ UInt32.size ≤ (UInt32.ofNat tokens.length).toNat * 2
    · rw [if_pos ⟨h.1, List.cons_ne_nil stage rest, h.2⟩]
      simp only [executePrefill, u32Arith, if_pos h]
    · rw [if_neg fun hover : PrefillOverflows _ _ _ => h ⟨hover.1, hover.2.2⟩]
      simp only [executePrefill, u32Arith, if_neg h]

theorem executePrefill_eq : executePrefill overflowChecks stages tokens clock =
    (if PrefillOverflows overflowChecks stages tokens then .panic else .ok tokens,
      (executePrefill overflowChecks stages tokens clock).2) :=
  Prod.ext executePrefill_fst rfl

/-- Half of the lengths that fit are short enough. -/
theorem not_prefillOverflows (h : tokens.length ≤ 2 ^ 30) :
    ¬ PrefillOverflows overflowChecks stages tokens := by
  rintro ⟨-, -, hsize⟩
  have hmod := Nat.mod_le tokens.length (2 ^ 32)
  rw [UInt32.toNat_ofNat', UInt32.size] at hsize
  omega

/-- What the decoder makes of the last token, if their sum fits. -/
def nextToken (previous : UInt32) : UInt32 := (previous + 1) % 1000

theorem add_one_lt {previous : UInt32} (h : previous ≠ 4294967295) :
    previous.toNat + 1 < UInt32.size := by
  have hlt := previous.toNat_lt
  have hne := mt UInt32.toNat_inj.1 h
  rw [UInt32.size]
  simp at hne
  omega

theorem toNat_nextToken {previous : UInt32} (h : previous ≠ 4294967295) :
    (nextToken previous).toNat = (previous.toNat + 1) % 1000 := by
  have hlt := add_one_lt h
  rw [UInt32.size] at hlt
  unfold nextToken
  rw [UInt32.toNat_mod, UInt32.toNat_add]
  simp
  omega

/-- The next addition fits too. -/
theorem nextToken_ne_max (previous : UInt32) : nextToken previous ≠ 4294967295 := by
  have hlt : (nextToken previous).toNat < 1000 := by
    unfold nextToken
    rw [UInt32.toNat_mod]
    exact Nat.mod_lt _ (by decide)
  intro h
  rw [h] at hlt
  exact absurd hlt (by decide)

theorem executeDecode_of_ne (h : lastToken context ≠ 4294967295) :
    executeDecode overflowChecks stages context clock =
      (.ok (nextToken (lastToken context)), runStages .ready clock stages) := by
  have hlt := add_one_lt h
  have harith : u32Arith overflowChecks ((lastToken context).toNat + 1) =
      .ok (UInt32.ofNat ((lastToken context).toNat + 1)) :=
    if_neg fun hover => absurd hover.2 (by omega)
  unfold executeDecode
  change (u32Arith overflowChecks ((lastToken context).toNat + 1) >>= _, _) = _
  rw [harith]
  simp [nextToken]

theorem executeDecode_of_eq (h : lastToken context = 4294967295) :
    executeDecode true stages context clock = (.panic, runStages .ready clock stages) := by
  unfold executeDecode
  change (u32Arith true ((lastToken context).toNat + 1) >>= _, _) = _
  rw [h]
  rfl

end

/-! ## The loop -/

section
variable {clock : Nat → Nat → DateTime} {n r : Nat} {generatedTokens result : List UInt32}

/-- **The loop adds tokens that continue its context.** -/
theorem continues_of_decodeLoop (hadd : overflowChecks = true ∨ lastToken context ≠ 4294967295)
    (h : (decodeLoop overflowChecks clock n r stages context generatedTokens).1 = .ok result) :
    ∃ new, result = generatedTokens ++ new ∧ Continues (lastToken context) n new := by
  induction n generalizing r stages context generatedTokens with
  | zero =>
    cases h
    exact ⟨[], (List.append_nil _).symm, .nil⟩
  | succ n ih =>
    by_cases hmax : lastToken context = 4294967295
    · obtain rfl := hadd.resolve_right (not_not.2 hmax)
      simp [decodeLoop, executeDecode_of_eq hmax] at h
    · have hnext := toNat_nextToken hmax
      have hfits := nextToken_ne_max (lastToken context)
      simp only [decodeLoop, executeDecode_of_ne hmax] at h
      generalize nextToken (lastToken context) = token at h hnext hfits
      split at h
      · rename_i htwo
        cases h
        exact ⟨[token], rfl, htwo ▸ .single (htwo ▸ hnext)⟩
      · rename_i htwo
        rw [← lastToken_concat context token] at hfits
        obtain ⟨new, hresult, hnew⟩ := ih (.inr hfits) h
        rw [lastToken_concat] at hnew
        exact ⟨token :: new, by simpa using hresult, .cons hnext htwo hnew⟩

/-- Only the first addition can overflow. -/
theorem decodeLoop_panic_iff :
    (decodeLoop true clock n r stages context generatedTokens).1 = .panic ↔
      n ≠ 0 ∧ lastToken context = 4294967295 := by
  induction n generalizing r stages context generatedTokens with
  | zero => simp [decodeLoop]
  | succ n ih =>
    by_cases hmax : lastToken context = 4294967295
    · simp [decodeLoop, executeDecode_of_eq hmax, hmax]
    · have hfits := nextToken_ne_max (lastToken context)
      refine iff_of_false ?_ fun h => hmax h.2
      simp only [decodeLoop, executeDecode_of_ne hmax]
      split
      · intro h
        cases h
      · rw [ih, lastToken_concat]
        exact fun h => hfits h.2

end

/-! ## The call -/

/-- A session of two stages. -/
def twoStages : PipelineExecutor :=
  (new.initializeSession ⟨7⟩ ⟨"test-model", .pipeline, ⟨5.0, 50.0, 15.0⟩,
    [⟨0, ⟨1⟩, "cpu:0", [0, 1, 2], 1048576⟩, ⟨1, ⟨2⟩, "cpu:0", [3, 4, 5], 1048576⟩],
    ⟨.stageLocal, 67108864⟩⟩ ⟨0⟩).2

section
variable {s : PipelineExecutor} {request : ExecutionRequest} {clock : Nat → Nat → DateTime}
  {elapsed : Duration}

theorem generate_fst : (generate overflowChecks stages request clock).1 =
    if PrefillOverflows overflowChecks stages request.inputTokens then .panic
    else (decodeLoop overflowChecks clock request.maxTokens.toNat 1
      (executePrefill overflowChecks stages request.inputTokens (clock 0)).2
      (request.inputTokens ++ request.inputTokens) []).1 := by
  unfold generate
  rw [executePrefill_eq]
  by_cases hover : PrefillOverflows overflowChecks stages request.inputTokens
  · simp only [if_pos hover]
  · simp only [if_neg hover]

/-- **What a request generates continues its input**, unless the first addition wraps unnoticed. -/
theorem continues_of_execute {result : ExecutionResult}
    (hadd : overflowChecks = true ∨ request.inputTokens.getLast? ≠ some 4294967295)
    (h : (s.execute overflowChecks request clock elapsed).1 = .ok result) :
    Continues (lastToken request.inputTokens) request.maxTokens.toNat result.tokens := by
  obtain ⟨session, -, hexecute⟩ := execute_of_ready (ready_of_execute h)
  rw [hexecute] at h
  obtain ⟨tokens, hgenerate, hresult⟩ := Outcome.bind_ok.1 h
  cases hresult
  rw [generate_fst] at hgenerate
  split at hgenerate
  · cases hgenerate
  · rw [Ne, ← lastToken_eq_max, ← lastToken_append_self] at hadd
    obtain ⟨new, rfl, hcontinues⟩ := continues_of_decodeLoop hadd hgenerate
    rwa [lastToken_append_self] at hcontinues

theorem continues_of_twoStages : ∃ result,
    (twoStages.execute true ⟨⟨7⟩, [1, 2, 3], 10, 0.7⟩ (fun _ _ => ⟨2⟩) ⟨1, 0⟩).1 = .ok result ∧
      Continues (lastToken [1, 2, 3]) 10 result.tokens := by
  obtain ⟨result, hok⟩ : ∃ result, (twoStages.execute true ⟨⟨7⟩, [1, 2, 3], 10, 0.7⟩
      (fun _ _ => ⟨2⟩) ⟨1, 0⟩).1 = .ok result := ⟨_, rfl⟩
  exact ⟨result, hok, continues_of_execute (.inl rfl) hok⟩

/-- **When no sum and no product overflows.** -/
theorem execute_ne_panic_iff (hlen : request.inputTokens.length ≤ 2 ^ 30) :
    (s.execute true request clock elapsed).1 ≠ .panic ↔
      ¬ (Ready (s.status request.sessionId) ∧ request.maxTokens ≠ 0 ∧
        request.inputTokens.getLast? = some 4294967295) := by
  rw [not_iff_not]
  by_cases hready : Ready (s.status request.sessionId)
  · obtain ⟨session, -, hexecute⟩ := execute_of_ready hready
    have hgenerate : (s.execute true request clock elapsed).1 = .panic ↔
        (generate true session.stageStates request clock).1 = .panic := by
      rw [hexecute]
      cases (generate true session.stageStates request clock).1 <;> simp
    rw [hgenerate, generate_fst, if_neg (not_prefillOverflows hlen), decodeLoop_panic_iff,
      lastToken_append_self, lastToken_eq_max]
    simp [hready, ← UInt32.toNat_inj]
  · obtain ⟨error, herror⟩ := execute_of_not_ready hready
    rw [herror]
    refine iff_of_false (fun h => ?_) fun h => hready h.1
    cases h

theorem execute_ne_panic_of_twoStages :
    (twoStages.execute true ⟨⟨7⟩, [1, 2, 3], 10, 0.7⟩ (fun _ _ => ⟨2⟩) ⟨1, 0⟩).1 ≠ .panic :=
  (execute_ne_panic_iff (by decide)).2 fun h => absurd h.2.2 (by decide)

/-- The successor of the last token does not fit. -/
theorem not_execute_ne_panic : ¬ ∀ (s : PipelineExecutor) (request : ExecutionRequest)
    (clock : Nat → Nat → DateTime) (elapsed : Duration), request.inputTokens.length ≤ 2 ^ 30 →
      (s.execute true request clock elapsed).1 ≠ .panic := by
  intro h
  exact h twoStages ⟨⟨7⟩, [4294967295], 1, 0.7⟩ (fun _ _ => ⟨2⟩) ⟨1, 0⟩ (by decide) rfl

end

end TensorGrid.PipelineExecutor
