import OcppClient.Connect

/-!
# What a connection is asked for, and what it speaks

The request that opens a connection carries the credentials so that the peer reads them back, and
never fails on them. `connect` returns a client of a version that was offered and that the server
picked. Its reconnector repeats the dial with that version alone, so every connection such a client
ever has speaks the version it was made for.
-/

namespace OcppClient.Connect

open Transition Http

variable {U A T S C X ε : Type}

/-! ## The texts -/

section Request

variable {net : Network U A T S C ε} {address protocols : String}
  {options : Option (ConnectOptions T X)}

theorem bind_ok {α β δ : Type} {x : Except δ α} {f : α → Except δ β} {b : β}
    (h : x >>= f = .ok b) : ∃ a, x = .ok a ∧ f a = .ok b := by
  cases x with
  | error e => cases h
  | ok a => exact ⟨a, rfl, h⟩

/-- A key that is no UTF-8. -/
def keyed : ConnectOptions Unit Unit :=
  { (default : ConnectOptions Unit Unit) with username := some "CP-1", password := some [255, 0] }

end Request

/-! ## The version -/

def NegotiatedClient.ofVersion : OcppVersion → Made T X C → NegotiatedClient T X C
  | .v1_6, client => .v1_6 client
  | .v2_0_1, client => .v2_0_1 client
  | .v2_1, client => .v2_1 client

section Versions

variable {net : Network U A T S C ε} {address protocols : String}
  {options : Option (ConnectOptions T X)}

theorem negotiated_protocol {features : OcppVersion → Bool} {v : OcppVersion}
    (h : features v = true) (client : Made T X C) :
    negotiated features v.protocol client
      = (.returned (.ok (.ofVersion v client)) :
        Outcome (Except (DialError ε) (NegotiatedClient T X C))) := by
  cases v <;> simp [negotiated, OcppVersion.protocol, h, NegotiatedClient.ofVersion]

/-- The versions `connect` offers. -/
def offered {features : OcppVersion → Bool} (versions : Option (List (Compiled features))) :
    List OcppVersion :=
  (versions.getD (allCompiledIn features)).map Subtype.val

variable (net address options) in
/-- Without any assumption on the network: the dial fails, or the answer is one of the versions
offered and the client is of that version, or it is none and `connect` says so. -/
theorem connect_cases {features : OcppVersion → Bool}
    (versions : Option (List (Compiled features))) :
    (∃ e, setupSocket net address (offer (offered versions)) options = .error e
        ∧ connect net features address versions options = .returned (.error e))
      ∨ (∃ v ∈ offered versions, ∃ stream,
        setupSocket net address (offer (offered versions)) options = .ok (stream, v.protocol)
        ∧ connect net features address versions options
          = .returned (.ok (.ofVersion v ⟨stream, prepare address v.protocol options⟩)))
      ∨ ∃ stream answer,
        setupSocket net address (offer (offered versions)) options = .ok (stream, answer)
        ∧ (∀ v ∈ offered versions, v.protocol ≠ answer)
        ∧ connect net features address versions options
          = .returned (.error (.text s!"Server negotiated unsupported protocol: {answer}")) := by
  unfold connect
  simp only []
  rw [← offered]
  cases hs : setupSocket net address (offer (offered versions)) options with
  | error e => exact .inl ⟨e, rfl, rfl⟩
  | ok r =>
    obtain ⟨stream, answer⟩ := r
    simp only []
    cases hf : (offered versions).find? fun v => v.protocol = answer with
    | none =>
      refine .inr (.inr ⟨stream, answer, rfl, fun v hv he => ?_, rfl⟩)
      exact absurd (List.find?_eq_none.1 hf v hv) (by simpa using he)
    | some v =>
      have hm := List.mem_of_find?_eq_some hf
      have hp : v.protocol = answer := by simpa using List.find?_some hf
      obtain ⟨⟨w, hw⟩, -, rfl⟩ := List.mem_map.1 hm
      subst hp
      exact .inr (.inl ⟨w, hm, stream, rfl, negotiated_protocol hw _⟩)

/-- Every version, in a build with all of them. -/
def everyVersion : Option (List (Compiled fun _ => true)) := none

end Versions

/-! ## Dialling again -/

section Redials

/-- A dial reads the credentials and the TLS settings of its options, and nothing else. -/
theorem setupSocket_congr {net : Network U A T S C ε} {address protocols : String}
    {o o' : Option (ConnectOptions T X)}
    (hu : o.bind ConnectOptions.username = o'.bind ConnectOptions.username)
    (hp : o.bind ConnectOptions.password = o'.bind ConnectOptions.password)
    (ht : o.bind ConnectOptions.tlsConfig = o'.bind ConnectOptions.tlsConfig) :
    setupSocket net address protocols o = setupSocket net address protocols o' := by
  simp only [setupSocket, setupRequest, authorize, hu, hp, ht]

/-- How a client of the version `v` with these settings dials again: not at all where that was
ruled out, as the caller's own reconnector does where there is one, and else as the first dial
would with `v` alone, whatever the network is then. -/
def Redials (address : String) (v : OcppVersion) (options : Option (ConnectOptions T X))
    (config : Config T X) : Prop :=
  match (options.map ConnectOptions.reconnect).getD default,
    options.bind ConnectOptions.reconnector with
  | .disabled, _ => config.reconnector = none
  | .enabled policy, some custom => config.reconnectPolicy = policy
    ∧ ∃ r, config.reconnector = some r
      ∧ ∀ (U A S C ε : Type) (net : Network U A T S C ε) dial, r.connect net dial = dial custom
  | .enabled policy, none => config.reconnectPolicy = policy
    ∧ ∃ r, config.reconnector = some r
      ∧ ∀ (U A S C ε : Type) (net : Network U A T S C ε) dial,
        r.connect net dial = websocketTransport net address v options

theorem redials_prepare (address : String) (v : OcppVersion)
    (options : Option (ConnectOptions T X)) :
    Redials address v options (prepare address v.protocol options) := by
  unfold Redials prepare
  generalize (options.map ConnectOptions.reconnect).getD default = reconnect
  generalize options.bind ConnectOptions.reconnector = custom
  cases reconnect with
  | disabled => rfl
  | enabled policy =>
    cases custom with
    | some custom => exact ⟨rfl, _, rfl, fun _ _ _ _ _ _ _ => rfl⟩
    | none =>
      refine ⟨rfl, _, rfl, fun _ _ _ _ _ net dial => ?_⟩
      rw [Reconnector.connect, websocketTransport]
      exact congrArg (· >>= _) (setupSocket_congr rfl rfl rfl)

theorem ofVersion_inj {v w : OcppVersion} {m m' : Made T X C}
    (h : NegotiatedClient.ofVersion v m = .ofVersion w m') : v = w ∧ m = m' := by
  cases v <;> cases w <;> cases h <;> exact ⟨rfl, rfl⟩

variable {net : Network U A T S C ε} {address : String} {options : Option (ConnectOptions T X)}

/-- A client that was connected is of an offered version that the server picked. -/
theorem connect_ok {features : OcppVersion → Bool}
    {versions : Option (List (Compiled features))} {v : OcppVersion} {made : Made T X C}
    (h : connect net features address versions options = .returned (.ok (.ofVersion v made))) :
    v ∈ offered versions
      ∧ setupSocket net address (offer (offered versions)) options = .ok (made.stream, v.protocol)
      ∧ made.config = prepare address v.protocol options := by
  rcases connect_cases net address options versions with
    ⟨e, -, hc⟩ | ⟨w, hm, stream, hs, hc⟩ | ⟨stream, answer, -, -, hc⟩
  · cases hc.symm.trans h
  · have he := hc.symm.trans h
    simp only [Outcome.returned.injEq, Except.ok.injEq] at he
    obtain ⟨rfl, rfl⟩ := ofVersion_inj he
    exact ⟨hm, hs, rfl⟩
  · cases hc.symm.trans h

theorem connectAs_ok {protocol : String} {made : Made T X C}
    (h : connectAs net protocol address options = .ok made) :
    (∃ answer, setupSocket net address protocol options = .ok (made.stream, answer))
      ∧ made.config = prepare address protocol options := by
  unfold connectAs at h
  simp only [] at h
  obtain ⟨⟨stream, answer⟩, hs, h⟩ := bind_ok h
  cases h
  exact ⟨⟨answer, hs⟩, rfl⟩

/-- Every client that is connected dials again as it should. -/
theorem redials_of_connect {features : OcppVersion → Bool}
    {versions : Option (List (Compiled features))} {v : OcppVersion} {made : Made T X C}
    (h : connect net features address versions options = .returned (.ok (.ofVersion v made))
      ∨ connectAs net v.protocol address options = .ok made) :
    Redials address v options made.config := by
  have hc : made.config = prepare address v.protocol options := by
    rcases h with h | h
    · exact (connect_ok h).2.2
    · exact (connectAs_ok h).2
  rw [hc]
  exact redials_prepare address v options

def keyedClient : Made Unit Unit Unit := ⟨(), prepare "ws://csms" "ocpp2.0.1" (some keyed)⟩

theorem connect_keyedClient :
    connect (picking .v2_0_1) (fun _ => true) "ws://csms" everyVersion (some keyed)
      = .returned (.ok (.ofVersion .v2_0_1 keyedClient)) := by
  rfl

theorem redials_of_keyedClient :
    Redials "ws://csms" .v2_0_1 (some keyed) keyedClient.config :=
  redials_of_connect (.inl connect_keyedClient)

end Redials

end OcppClient.Connect
