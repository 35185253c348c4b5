import TensorGrid.NodeAgent.Identity

/-!
# When the heartbeat loop gives up

`start_heartbeat_loop` counts failures in `reconnect_attempts`, which every success sets to 0, and
breaks at five of them. A client is cleared by a failed heartbeat and stored by a registration, so
the count is 0 while there is a client (`Standing.up`), and one more than the failed registrations
since the heartbeat while there is none (`Standing.down`). So the loop is left after one failed
heartbeat and four failed registrations, and then only: `gives_up_iff`.
-/

namespace TensorGrid

open Rust

section
variable (parseUuid : String → Option Uuid)

/-- The registration fails. -/
def NodeAgent.Refused (agent : NodeAgent) (o : RegistrationOutcome) : Prop :=
  ∃ e, (agent.register parseUuid agent.coordinatorAddr o).1 = .err e

namespace AgentRun

/-- The loop starts, with a client. -/
def Started (s : AgentRun) : Prop :=
  s.agent.coordinatorClient.isSome ∧
    ∃ l, HeartbeatLoop.start s.agent = some l ∧ s.phase = .looping l

/-- The run ends in a failed heartbeat and then `n` failed registrations. -/
def FailedSince (agent : NodeAgent) (n : Nat) (es : List AgentLabel) : Prop :=
  ∃ (pre : List AgentLabel) (resources : NodeResources) (message : String)
      (os : List RegistrationOutcome),
    es = pre ++ .heartbeat resources (.error message) :: os.map .register ∧ os.length = n ∧
      ∀ o ∈ os, agent.Refused parseUuid o

end AgentRun

end

variable {parseUuid : String → Option Uuid}

theorem NodeAgent.register_congr {agent agent' : NodeAgent}
    (h : agent'.clusterId = agent.clusterId) (addr : String) (o : RegistrationOutcome) :
    (agent'.register parseUuid addr o).1 = (agent.register parseUuid addr o).1 := by
  unfold NodeAgent.register
  rw [h]
  dsimp only
  cases o.capabilities with
  | error message => rfl
  | ok capabilities =>
    dsimp only
    cases o.response _ _ with
    | error message => rfl
    | ok response =>
      dsimp only
      cases !response.success with
      | true => rfl
      | false => cases hparse : parseUuid response.nodeId <;> simp

namespace AgentRun

variable {agent : NodeAgent} {n : Nat} {es : List AgentLabel} {s t : AgentRun} {e : AgentLabel}

/-! ## The failures at the end of a run -/

theorem not_failedSince_nil : ¬ FailedSince parseUuid agent n [] := by
  rintro ⟨pre, resources, message, os, h, -⟩
  simp at h

/-- A last label, taken off. -/
theorem failedSince_concat : FailedSince parseUuid agent n (es ++ [e]) ↔
    (∃ resources message, e = .heartbeat resources (.error message) ∧ n = 0) ∨
      ∃ o m, e = .register o ∧ n = m + 1 ∧ agent.Refused parseUuid o ∧
        FailedSince parseUuid agent m es := by
  refine ⟨fun h => ?_, fun h => ?_⟩
  · obtain ⟨pre, resources, message, os, h, rfl, hos⟩ := h
    cases os using List.reverseRecOn with
    | nil =>
      obtain ⟨-, he⟩ := List.append_inj' h rfl
      exact .inl ⟨resources, message, (List.cons.inj he).1, rfl⟩
    | append_singleton os o =>
      rw [List.map_append, List.map_singleton, ← List.cons_append, ← List.append_assoc] at h
      obtain ⟨rfl, he⟩ := List.append_inj' h rfl
      refine .inr ⟨o, os.length, (List.cons.inj he).1, by simp, hos o (by simp), ?_⟩
      exact ⟨pre, resources, message, os, rfl, rfl, fun o ho => hos o (by simp [ho])⟩
  · rcases h with ⟨resources, message, rfl, rfl⟩ | ⟨o, m, rfl, rfl, ho, hsince⟩
    · exact ⟨es, resources, message, [], rfl, rfl, nofun⟩
    · obtain ⟨pre, resources, message, os, rfl, rfl, hos⟩ := hsince
      refine ⟨pre, resources, message, os ++ [o], by simp, by simp, fun o' ho' => ?_⟩
      rcases List.mem_append.1 ho' with ho' | ho'
      · exact hos o' ho'
      · rwa [List.mem_singleton.1 ho']

theorem failedSince_answered (resources : NodeResources) (r : HeartbeatResponse) :
    ¬ FailedSince parseUuid agent n (es ++ [.heartbeat resources (.ok r)]) := by
  simp [failedSince_concat]

theorem failedSince_unanswered (resources : NodeResources) (message : String) :
    FailedSince parseUuid agent n (es ++ [.heartbeat resources (.error message)]) ↔ n = 0 := by
  simp [failedSince_concat]

theorem failedSince_register (o : RegistrationOutcome) :
    FailedSince parseUuid agent n (es ++ [.register o]) ↔
      ∃ m, n = m + 1 ∧ agent.Refused parseUuid o ∧ FailedSince parseUuid agent m es := by
  simp [failedSince_concat]

/-! ## What a turn does -/

variable (parseUuid) in
/-- All that a step can do from within the loop. -/
inductive LoopTurn (s t : AgentRun) (l : HeartbeatLoop) : AgentLabel → Prop
  | registered (o : RegistrationOutcome) (nodeId : NodeId) (client : CoordinatorClient) :
      s.agent.coordinatorClient = none → ¬ s.agent.Refused parseUuid o →
      t.agent = { s.agent with nodeId := some nodeId, coordinatorClient := some client } →
      t.phase = .looping { l with reconnectAttempts := 0 } → LoopTurn s t l (.register o)
  | refused (o : RegistrationOutcome) : s.agent.coordinatorClient = none →
      s.agent.Refused parseUuid o → t.agent = s.agent → t.phase = .ofLoop l.fail →
      LoopTurn s t l (.register o)
  | answered (resources : NodeResources) (r : HeartbeatResponse) :
      s.agent.coordinatorClient.isSome → t.agent = s.agent →
      t.phase = .looping { l with sequence := l.sequence + 1, reconnectAttempts := 0 } →
      LoopTurn s t l (.heartbeat resources (.ok r))
  | unanswered (resources : NodeResources) (message : String) :
      s.agent.coordinatorClient.isSome → t.agent = { s.agent with coordinatorClient := none } →
      t.phase = .ofLoop l.fail → LoopTurn s t l (.heartbeat resources (.error message))

theorem loopTurn_registerAgain (s : AgentRun) (l : HeartbeatLoop) (o : RegistrationOutcome)
    (hclient : s.agent.coordinatorClient = none) :
    LoopTurn parseUuid s (s.registerAgain parseUuid l o) l (.register o) := by
  rcases s.agent.register_cases parseUuid s.agent.coordinatorAddr o with
    ⟨nodeId, response, hok, -⟩ | ⟨e, herr⟩
  · have hnot : ¬ s.agent.Refused parseUuid o := by
      rintro ⟨e, he⟩
      rw [hok] at he
      cases he
    rw [registerAgain, hok]
    exact .registered o nodeId _ hclient hnot rfl rfl
  · have hrefused : s.agent.Refused parseUuid o := ⟨e, by rw [herr]⟩
    rw [registerAgain, herr]
    exact .refused o hclient hrefused rfl rfl

theorem loopTurn_of_step (h : s.step parseUuid e = some t) {l : HeartbeatLoop}
    (hl : s.phase = .looping l) : LoopTurn parseUuid s t l e := by
  cases e with
  | register o =>
    rw [step, hl] at h
    cases hclient : s.agent.coordinatorClient with
    | none =>
      rw [hclient] at h
      cases h
      exact loopTurn_registerAgain s l o hclient
    | some client =>
      rw [hclient] at h
      cases h
  | heartbeat resources response =>
    rw [step, hl] at h
    cases hclient : s.agent.coordinatorClient with
    | none =>
      rw [hclient] at h
      cases h
    | some client =>
      have hsome : s.agent.coordinatorClient.isSome := by rw [hclient]; rfl
      rw [hclient] at h
      cases h
      cases response with
      | ok r => exact .answered resources r hsome rfl rfl
      | error message => exact .unanswered resources message hsome rfl rfl

/-- The loop goes on to a heartbeat if there is a client and to a registration if not, and takes any
outcome of it. -/
theorem exists_step {l : HeartbeatLoop} (hl : s.phase = .looping l) :
    (s.agent.coordinatorClient.isSome →
      ∀ resources response, ∃ t, s.step parseUuid (.heartbeat resources response) = some t) ∧
    (s.agent.coordinatorClient = none → ∀ o, ∃ t, s.step parseUuid (.register o) = some t) := by
  refine ⟨fun hsome resources response => ?_, fun hnone o => ?_⟩
  · obtain ⟨client, hclient⟩ := Option.isSome_iff_exists.1 hsome
    rw [step, hl, hclient]
    exact ⟨_, rfl⟩
  · rw [step, hl, hnone]
    exact ⟨_, rfl⟩

/-! ## Where the loop stands -/

variable (parseUuid) in
/-- The count and the client, by the failures at the end of the run. -/
inductive Standing (agent : NodeAgent) (es : List AgentLabel) (t : AgentRun) : Prop
  | up (l : HeartbeatLoop) : t.phase = .looping l → t.agent.coordinatorClient.isSome →
      l.reconnectAttempts = 0 → (∀ n, ¬ FailedSince parseUuid agent n es) → Standing agent es t
  | down (l : HeartbeatLoop) (m : Nat) : t.phase = .looping l → t.agent.coordinatorClient = none →
      m ≤ 3 → l.reconnectAttempts = UInt32.ofNat (m + 1) →
      (∀ n, FailedSince parseUuid agent n es ↔ n = m) → Standing agent es t
  | out : t.phase = .stopped → (∀ n, FailedSince parseUuid agent n es ↔ n = 4) →
      Standing agent es t

/-- A failure is counted, and the fifth ends the loop. -/
theorem fail_cases {l : HeartbeatLoop} {m : Nat} (hm : m ≤ 4)
    (hl : l.reconnectAttempts = UInt32.ofNat m) :
    m ≤ 3 ∧ (∃ l', l.fail = some l' ∧ l'.reconnectAttempts = UInt32.ofNat (m + 1)) ∨
      m = 4 ∧ l.fail = none := by
  unfold HeartbeatLoop.fail
  rw [hl]
  interval_cases m
  case «4» => exact .inr ⟨rfl, rfl⟩
  all_goals exact .inl ⟨by omega, _, rfl, rfl⟩

/-- The agent's cluster and coordinator. -/
def SameTarget (agent agent' : NodeAgent) : Prop :=
  agent'.clusterId = agent.clusterId ∧ agent'.coordinatorAddr = agent.coordinatorAddr

theorem SameTarget.refused_iff {agent agent' : NodeAgent} (h : SameTarget agent agent')
    (o : RegistrationOutcome) : agent'.Refused parseUuid o ↔ agent.Refused parseUuid o := by
  rw [NodeAgent.Refused, NodeAgent.Refused, h.2, NodeAgent.register_congr h.1]

theorem SameTarget.step {l : HeartbeatLoop} (h : SameTarget agent s.agent)
    (hturn : LoopTurn parseUuid s t l e) : SameTarget agent t.agent := by
  cases hturn with
  | registered o nodeId client hclient hok hagent hphase => rw [hagent]; exact h
  | refused o hclient hrefused hagent hphase => rw [hagent]; exact h
  | answered resources r hclient hagent hphase => rw [hagent]; exact h
  | unanswered resources message hclient hagent hphase => rw [hagent]; exact h

/-- A step changes where the loop stands by its outcome. -/
theorem Standing.turn {l : HeartbeatLoop} (hs : Standing parseUuid agent es s)
    (htarget : SameTarget agent s.agent) (hl : s.phase = .looping l)
    (hturn : LoopTurn parseUuid s t l e) : Standing parseUuid agent (es ++ [e]) t := by
  cases hs with
  | up l₀ hphase hclient hzero hno =>
    cases hphase.symm.trans hl
    cases hturn with
    | registered o nodeId client hnone => simp [hnone] at hclient
    | refused o hnone => simp [hnone] at hclient
    | answered resources r hsome hagent hphase =>
      exact .up _ hphase (hagent ▸ hsome) rfl fun n => failedSince_answered resources r
    | unanswered resources message hsome hagent hphase =>
      obtain ⟨-, l', hfail, hcount⟩ | ⟨hm, -⟩ := fail_cases (m := 0) (by omega) hzero
      · rw [hfail] at hphase
        exact .down l' 0 hphase (by rw [hagent]) (by omega) hcount
          fun n => failedSince_unanswered resources message
      · cases hm
  | down l₀ m hphase hclient hm hcount hiff =>
    cases hphase.symm.trans hl
    cases hturn with
    | registered o nodeId client hnone hok hagent hphase =>
      refine .up _ hphase (by rw [hagent]; rfl) rfl fun n hsince => ?_
      obtain ⟨-, -, hrefused, -⟩ := (failedSince_register o).1 hsince
      exact hok ((htarget.refused_iff o).2 hrefused)
    | refused o hnone hrefused hagent hphase =>
      have hsince (n : Nat) :
          FailedSince parseUuid agent n (es ++ [.register o]) ↔ n = m + 1 := by
        rw [failedSince_register]
        simp [hiff, (htarget.refused_iff o).1 hrefused]
      obtain ⟨hle, l', hfail, hcount⟩ | ⟨hfour, hfail⟩ := fail_cases (by omega) hcount
      · rw [hfail] at hphase
        exact .down l' (m + 1) hphase (hagent ▸ hclient) hle hcount hsince
      · rw [hfail] at hphase
        exact .out hphase fun n => (hsince n).trans (by rw [hfour])
    | answered resources r hsome => simp [hclient] at hsome
    | unanswered resources message hsome => simp [hclient] at hsome
  | out hphase hiff => cases hphase.symm.trans hl

theorem Started.standing (hs : Started s) : Standing parseUuid s.agent [] s := by
  obtain ⟨hclient, l, hl, hphase⟩ := hs
  obtain ⟨nodeId, -, rfl⟩ := Option.map_eq_some_iff.1 hl
  exact .up _ hphase hclient rfl fun n => not_failedSince_nil

/-! ## Runs -/

theorem standing_of_exec (hs : Started s) (h : Lts.exec (step parseUuid) s es = some t) :
    Standing parseUuid s.agent es t ∧ SameTarget s.agent t.agent := by
  refine Lts.exec_induction (P := fun es t => Standing parseUuid s.agent es t ∧
    SameTarget s.agent t.agent) ⟨hs.standing, rfl, rfl⟩ (fun es u e t _ ih he => ?_) h
  obtain ⟨hu, htarget⟩ := ih
  cases hphase : u.phase with
  | looping l =>
    have hturn := loopTurn_of_step he hphase
    exact ⟨hu.turn htarget hphase hturn, htarget.step hturn⟩
  | starting => cases hu <;> simp_all
  | stopped => cases e <;> simp [step, hphase] at he

/-- **The loop gives up exactly after a failed heartbeat and four failed registrations**; while
there is a client the count is 0, and no failed heartbeat ends the loop. -/
theorem gives_up_iff (hs : Started s) (h : Lts.exec (step parseUuid) s es = some t) :
    (t.phase = .stopped ↔ FailedSince parseUuid s.agent 4 es) ∧
    (∀ l, t.phase = .looping l → t.agent.coordinatorClient.isSome → l.reconnectAttempts = 0) ∧
    ∀ resources message u, t.step parseUuid (.heartbeat resources (.error message)) = some u →
      u.phase ≠ .stopped := by
  obtain ⟨ht, -⟩ := standing_of_exec hs h
  refine ⟨?_, fun l hl hclient => ?_, fun resources message u he hstopped => ?_⟩
  · cases ht with
    | up l hphase hclient hzero hno => simp [hphase, hno]
    | down l m hphase hclient hm hcount hiff =>
      rw [hphase, hiff]
      exact iff_of_false AgentPhase.noConfusion (by omega)
    | out hphase hiff => simp [hphase, hiff]
  · cases ht with
    | up l₀ hphase hclient hzero hno =>
      cases hphase.symm.trans hl
      exact hzero
    | down l₀ m hphase hnone hm hcount hiff => simp [hnone] at hclient
    | out hphase hiff => cases hphase.symm.trans hl
  · obtain ⟨hu, -⟩ := standing_of_exec hs (Lts.exec_concat.2 ⟨t, h, he⟩)
    cases hu with
    | up l hphase => cases hphase.symm.trans hstopped
    | down l m hphase => cases hphase.symm.trans hstopped
    | out hphase hiff =>
      have hzero := (hiff 0).1 ((failedSince_unanswered resources message).2 rfl)
      cases hzero

/-- An agent in its loop. -/
def registeredRun : AgentRun where
  agent := ⟨some ⟨1⟩, ⟨0⟩, "http://localhost:8080", some ⟨"http://localhost:8080"⟩⟩
  phase := .looping ⟨⟨1⟩, 0, 0⟩
  trace := [.registered ⟨1⟩]

/-- A registration that is not answered. -/
def unansweredRegistration : RegistrationOutcome :=
  { registeredAs ⟨1⟩ with response := fun _ _ => .error "Request failed" }

/-- The coordinator is gone. -/
def fiveFailures : List AgentLabel :=
  .heartbeat idleResources (.error "Request failed") ::
    (List.replicate 4 unansweredRegistration).map .register

theorem gives_up_fiveFailures : ∃ t,
    Lts.exec (step (parseEither ⟨1⟩ ⟨2⟩)) registeredRun fiveFailures = some t ∧
      (t.phase = .stopped ↔
        FailedSince (parseEither ⟨1⟩ ⟨2⟩) registeredRun.agent 4 fiveFailures) ∧
      (∀ l, t.phase = .looping l → t.agent.coordinatorClient.isSome → l.reconnectAttempts = 0) ∧
      ∀ resources message u,
        t.step (parseEither ⟨1⟩ ⟨2⟩) (.heartbeat resources (.error message)) = some u →
          u.phase ≠ .stopped := by
  obtain ⟨t, ht⟩ : ∃ t,
      Lts.exec (step (parseEither ⟨1⟩ ⟨2⟩)) registeredRun fiveFailures = some t := ⟨_, rfl⟩
  exact ⟨t, ht, gives_up_iff ⟨rfl, _, rfl, rfl⟩ ht⟩

end AgentRun

end TensorGrid
