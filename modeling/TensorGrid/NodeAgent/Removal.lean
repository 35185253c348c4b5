import TensorGrid.NodeAgent.Deployment

/-!
# When the id of a heartbeat is missing

The agent's id comes from the answer to a registration, and the answer is made once the node is in
the map; only a tick takes it out again, after more than 30 seconds without a heartbeat. So the
coordinator refuses a heartbeat of the agent only after a tick has removed its node
(`removed_of_missing`).
-/

namespace TensorGrid.Deployment

open Rust

variable {S : SignatureScheme} {parseStr : String → Option Uuid}
  {sha256 : List UInt8 → List UInt8}

/-- The step is a tick that removes the node. -/
def Removes (nodeId : NodeId) (d : Deployment S) (e : DeploymentLabel) : Prop :=
  ∃ e', e = .coordinator e' ∧ ControlPlane.Removes nodeId d.control e'

/-- The node is in the map, or a tick of the run has removed it. -/
def Listed (parseStr : String → Option Uuid) (sha256 : List UInt8 → List UInt8)
    (d₀ : Deployment S) (es : List DeploymentLabel) (d : Deployment S) (nodeId : NodeId) : Prop :=
  nodeId ∈ d.control.cluster.nodes ∨ Lts.Occurs (step parseStr sha256) (Removes nodeId) d₀ es

/-- A step is one of the coordinator, or leaves it. -/
theorem control_step {d d' : Deployment S} {e : DeploymentLabel}
    (he : d.step parseStr sha256 e = some d') : d'.control = d.control ∨
      ∃ e', d.control.step parseStr sha256 e' = some d'.control ∧
        (e' = .sweep → e = .coordinator e') := by
  cases e with
  | register probed =>
    simp only [step] at he
    split at he <;> cases he
    exact .inl rfl
  | heartbeat resources =>
    simp only [step] at he
    split at he <;> cases he
    exact .inl rfl
  | probeFails hostname resources message =>
    simp only [step] at he
    split at he
    · obtain ⟨_, -, rfl⟩ := Option.map_eq_some_iff.1 he
      exact .inl rfl
    · cases he
  | handleRegistration nodeId now =>
    simp only [step] at he
    split at he
    · obtain ⟨_, hcontrol, rfl⟩ := Option.map_eq_some_iff.1 he
      exact .inr ⟨_, hcontrol, fun hsweep => by cases hsweep⟩
    · cases he
  | handleHeartbeat now =>
    simp only [step] at he
    split at he
    · obtain ⟨_, hcontrol, rfl⟩ := Option.map_eq_some_iff.1 he
      exact .inr ⟨_, hcontrol, fun hsweep => by cases hsweep⟩
    · cases he
  | receive =>
    simp only [step] at he
    split at he
    · obtain ⟨_, -, rfl⟩ := Option.map_eq_some_iff.1 he
      exact .inl rfl
    · obtain ⟨_, -, rfl⟩ := Option.map_eq_some_iff.1 he
      exact .inl rfl
    · cases he
  | fail message =>
    simp only [step] at he
    obtain ⟨_, -, he⟩ := Option.bind_eq_some_iff.1 he
    obtain ⟨_, -, he⟩ := Option.bind_eq_some_iff.1 he
    cases he
    exact .inl rfl
  | coordinator e =>
    obtain ⟨_, hcontrol, rfl⟩ := Option.map_eq_some_iff.1 he
    exact .inr ⟨e, hcontrol, fun _ => rfl⟩

theorem Listed.step {d₀ d d' : Deployment S} {es : List DeploymentLabel} {e : DeploymentLabel}
    {nodeId : NodeId} (hes : Lts.exec (step parseStr sha256) d₀ es = some d)
    (he : d.step parseStr sha256 e = some d') (h : Listed parseStr sha256 d₀ es d nodeId) :
    Listed parseStr sha256 d₀ (es ++ [e]) d' nodeId := by
  rcases h with h | h
  · rcases control_step he with hsame | ⟨e', hcontrol, hsweep⟩
    · exact .inl (by rwa [hsame])
    · rcases ControlPlane.mem_step hcontrol h with h | hremoves
      · exact .inl h
      · exact .inr ((Lts.occurs_concat hes).2 (.inr ⟨e', hsweep hremoves.1, hremoves⟩))
  · exact .inr ((Lts.occurs_concat hes).2 (.inl h))

/-! ## Where the agent's id comes from -/

/-- A successful registration got an answer with the id it returns. -/
theorem response_of_register {agent agent' : NodeAgent} {addr : String} {o : RegistrationOutcome}
    {nodeId : NodeId} (h : agent.register parseStr addr o = (.ok nodeId, agent')) :
    ∃ url request response, o.response url request = .ok response ∧
      parseStr response.nodeId = some nodeId := by
  rcases agent.register_cases parseStr addr o with
    ⟨id, response, hok, ⟨url, request, hresponse⟩, hparse⟩ | ⟨e, herr⟩
  · rw [hok] at h
    cases h
    exact ⟨url, request, response, hresponse, hparse⟩
  · rw [herr] at h
    cases h

/-- The loop's id is the one from before the step, or that of an answer to a registration. -/
theorem looping_of_step {s t : AgentRun} {e : AgentLabel} (h : s.step parseStr e = some t)
    {l : HeartbeatLoop} (hl : t.phase = .looping l) :
    (∃ old, s.phase = .looping old ∧ old.nodeId = l.nodeId) ∨
      ∃ o url request response, e = .register o ∧ o.response url request = .ok response ∧
        parseStr response.nodeId = some l.nodeId := by
  have hcontinues {old : HeartbeatLoop} (hphase : s.phase = .looping old)
      (hnext : AgentRun.Continues old.nodeId t.phase) :
      ∃ old, s.phase = .looping old ∧ old.nodeId = l.nodeId := by
    rw [hl] at hnext
    exact ⟨old, hphase, hnext.symm⟩
  cases AgentRun.turn_of_step h with
  | refused o hphase hnext htrace => cases hnext.symm.trans hl
  | again o old nodeId hphase hnext htrace => exact .inl (hcontinues hphase hnext)
  | failed o old hphase hnext htrace => exact .inl (hcontinues hphase hnext)
  | heartbeat resources response old url request hphase hnext htrace =>
    exact .inl (hcontinues hphase hnext)
  | first o nodeId hphase hnext htrace =>
    right
    simp only [AgentRun.step, hphase, Option.some.injEq] at h
    subst h
    unfold AgentRun.registerFirst at hl
    split at hl
    · next id agent heq =>
      rw [HeartbeatLoop.start, AgentRun.nodeId_register heq] at hl
      cases hl
      obtain ⟨url, request, response, hresponse, hparse⟩ := response_of_register heq
      exact ⟨o, url, request, response, rfl, hresponse, hparse⟩
    · cases hl
    · cases hl

/-- An answer that a step makes names the node it has inserted. -/
theorem inserted_of_answer {c t : ControlPlane S} {e : CoordinatorEvent} {exchange : Exchange}
    {probed : Probed} {response : Api.RegisterNodeResponse}
    (he : c.step parseStr sha256 e = some t)
    (h : answerInserted c e exchange = .registered probed response) :
    exchange = .registered probed response ∨
      ∃ nodeId, response.nodeId = nodeId.hyphenated ∧ nodeId ∈ t.cluster.nodes := by
  unfold answerInserted at h
  split at h
  · next i probed nodeId =>
    split at h
    · next registration hget =>
      split at h
      · cases h
        refine .inr ⟨registration.node.id, rfl, ?_⟩
        have hstep := ControlPlane.cluster_step he
        generalize t.cluster = cluster at hstep ⊢
        cases hstep with
        | same _ hinsert => exact absurd rfl (hinsert i)
        | insert hget' =>
          obtain rfl := Option.some.inj (hget.symm.trans hget')
          exact (AList.mem_insert _).2 (.inl rfl)
        | modify hupdate => cases hupdate
      · cases h
    · cases h
  · exact .inl h

/-- A turn of the agent that gets an answer to a registration gets the one under way. -/
theorem agent_step {d d' : Deployment S} {e : DeploymentLabel}
    (he : d.step parseStr sha256 e = some d') : d'.agent = d.agent ∨ ∃ turn,
      d.agent.step parseStr turn = some d'.agent ∧ ∀ o url request response, turn = .register o →
        o.response url request = .ok response → ∃ probed answer,
          d.exchange = .registered probed answer ∧ response = answer.received := by
  cases e with
  | register probed =>
    simp only [step] at he
    split at he <;> cases he
    exact .inl rfl
  | heartbeat resources =>
    simp only [step] at he
    split at he <;> cases he
    exact .inl rfl
  | probeFails hostname resources message =>
    simp only [step] at he
    split at he
    · obtain ⟨agent, hagent, rfl⟩ := Option.map_eq_some_iff.1 he
      refine .inr ⟨_, hagent, fun o url request response ho hresponse => ?_⟩
      cases ho
      cases hresponse
    · cases he
  | handleRegistration nodeId now =>
    simp only [step] at he
    split at he
    · obtain ⟨_, -, rfl⟩ := Option.map_eq_some_iff.1 he
      exact .inl rfl
    · cases he
  | handleHeartbeat now =>
    simp only [step] at he
    split at he
    · obtain ⟨_, -, rfl⟩ := Option.map_eq_some_iff.1 he
      exact .inl rfl
    · cases he
  | receive =>
    simp only [step] at he
    split at he
    · next probed answer hexchange =>
      obtain ⟨agent, hagent, rfl⟩ := Option.map_eq_some_iff.1 he
      refine .inr ⟨_, hagent, fun o url request response ho hresponse => ?_⟩
      cases ho
      cases hresponse
      exact ⟨probed, answer, hexchange, rfl⟩
    · obtain ⟨agent, hagent, rfl⟩ := Option.map_eq_some_iff.1 he
      refine .inr ⟨_, hagent, fun o url request response ho hresponse => ?_⟩
      cases ho
    · cases he
  | fail message =>
    simp only [step] at he
    obtain ⟨turn, hturn, he⟩ := Option.bind_eq_some_iff.1 he
    obtain ⟨agent, hagent, he⟩ := Option.bind_eq_some_iff.1 he
    cases he
    refine .inr ⟨turn, hagent, fun o url request response ho hresponse => ?_⟩
    subst ho
    cases hexchange : d.exchange <;> rw [hexchange] at hturn
    case idle => cases hturn
    case registering | inserting | registered =>
      cases hturn
      cases hresponse
    case beating | answered => cases hturn
  | coordinator e =>
    obtain ⟨_, -, rfl⟩ := Option.map_eq_some_iff.1 he
    exact .inl rfl

/-- An answer to a registration is under way from before, or names a node of the map. -/
theorem exchange_step {d d' : Deployment S} {e : DeploymentLabel}
    (he : d.step parseStr sha256 e = some d') {probed : Probed}
    {response : Api.RegisterNodeResponse} (h : d'.exchange = .registered probed response) :
    d.exchange = .registered probed response ∨
      ∃ nodeId, response.nodeId = nodeId.hyphenated ∧ nodeId ∈ d'.control.cluster.nodes := by
  cases e with
  | register | heartbeat =>
    simp only [step] at he
    split at he <;> cases he
    cases h
  | probeFails hostname resources message =>
    simp only [step] at he
    split at he
    · obtain ⟨_, -, rfl⟩ := Option.map_eq_some_iff.1 he
      exact .inl h
    · cases he
  | handleRegistration nodeId now =>
    simp only [step] at he
    split at he
    · obtain ⟨_, -, rfl⟩ := Option.map_eq_some_iff.1 he
      cases h
    · cases he
  | handleHeartbeat now =>
    simp only [step] at he
    split at he
    · obtain ⟨_, -, rfl⟩ := Option.map_eq_some_iff.1 he
      cases h
    · cases he
  | receive =>
    simp only [step] at he
    split at he
    · obtain ⟨_, -, rfl⟩ := Option.map_eq_some_iff.1 he
      cases h
    · obtain ⟨_, -, rfl⟩ := Option.map_eq_some_iff.1 he
      cases h
    · cases he
  | fail message =>
    simp only [step] at he
    obtain ⟨_, -, he⟩ := Option.bind_eq_some_iff.1 he
    obtain ⟨_, -, he⟩ := Option.bind_eq_some_iff.1 he
    cases he
    cases h
  | coordinator e =>
    obtain ⟨_, hcontrol, rfl⟩ := Option.map_eq_some_iff.1 he
    exact inserted_of_answer hcontrol h

/-! ## Runs -/

/-- The id on its way to the agent and the id of its heartbeats are listed. -/
structure Enrolled (parseStr : String → Option Uuid) (sha256 : List UInt8 → List UInt8)
    (d₀ : Deployment S) (es : List DeploymentLabel) (d : Deployment S) : Prop where
  registered : ∀ probed response, d.exchange = .registered probed response →
    ∃ nodeId, response.nodeId = nodeId.hyphenated ∧ Listed parseStr sha256 d₀ es d nodeId
  looping : ∀ l, d.agent.phase = .looping l → Listed parseStr sha256 d₀ es d l.nodeId

theorem Enrolled.step (hparse : ∀ u : Uuid, parseStr u.hyphenated = some u) {d₀ d d' : Deployment S}
    {es : List DeploymentLabel} {e : DeploymentLabel}
    (hes : Lts.exec (step parseStr sha256) d₀ es = some d)
    (he : d.step parseStr sha256 e = some d') (h : Enrolled parseStr sha256 d₀ es d) :
    Enrolled parseStr sha256 d₀ (es ++ [e]) d' where
  registered probed response hexchange := by
    rcases exchange_step he hexchange with hexchange | ⟨nodeId, hid, hmem⟩
    · obtain ⟨nodeId, hid, hlisted⟩ := h.registered probed response hexchange
      exact ⟨nodeId, hid, hlisted.step hes he⟩
    · exact ⟨nodeId, hid, .inl hmem⟩
  looping l hl := by
    rcases agent_step he with hsame | ⟨turn, hturn, hanswer⟩
    · rw [hsame] at hl
      exact (h.looping l hl).step hes he
    · obtain ⟨old, hold, hid⟩ | ⟨o, url, request, response, ho, hresponse, hnodeId⟩ :=
        looping_of_step hturn hl
      · rw [← hid]
        exact (h.looping old hold).step hes he
      · obtain ⟨probed, answer, hexchange, rfl⟩ := hanswer o url request response ho hresponse
        obtain ⟨nodeId, hid, hlisted⟩ := h.registered probed answer hexchange
        have hsame : parseStr answer.nodeId = some l.nodeId := hnodeId
        rw [hid, hparse] at hsame
        obtain rfl := Option.some.inj hsame
        exact hlisted.step hes he

theorem enrolled_init (agentCluster : ClusterId) (coordinatorAddr : String)
    (clusterId : ClusterId) (key : S.SecretKey) :
    Enrolled parseStr sha256 (init agentCluster coordinatorAddr clusterId key) []
      (init agentCluster coordinatorAddr clusterId key) where
  registered probed response h := by cases h
  looping l h := by cases h

/-- **A heartbeat under a missing id** follows a tick that has removed the node. -/
theorem removed_of_missing (hparse : ∀ u : Uuid, parseStr u.hyphenated = some u)
    {agentCluster : ClusterId} {coordinatorAddr : String} {clusterId : ClusterId}
    {key : S.SecretKey} {es : List DeploymentLabel} {d : Deployment S}
    (hes : Lts.exec (step parseStr sha256) (init agentCluster coordinatorAddr clusterId key) es =
      some d)
    {nodeId : NodeId} {sequence : UInt64}
    (hnext : d.agent.nextRequest = some (.heartbeat nodeId sequence))
    (hmissing : nodeId ∉ d.control.cluster.nodes) :
    Lts.Occurs (step parseStr sha256) (Removes nodeId)
      (init agentCluster coordinatorAddr clusterId key) es := by
  have henrolled := Lts.exec_induction
    (P := Enrolled parseStr sha256 (init agentCluster coordinatorAddr clusterId key))
    (enrolled_init agentCluster coordinatorAddr clusterId key)
    (fun es d e d' hes henrolled he => henrolled.step hparse hes he) hes
  unfold AgentRun.nextRequest at hnext
  split at hnext
  · cases hnext
  · cases hnext
  · next l _ hphase _ =>
    cases hnext
    exact (henrolled.looping l hphase).resolve_left hmissing
  · cases hnext

end TensorGrid.Deployment
