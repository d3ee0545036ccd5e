import S2OPC.Channels.TokenAgreement

/-!
# S2OPC.Channels.FreshIds

The identifiers that a server gives to the connections of a listener. The first `OPN` request of a
connection gives it a secure channel id and a token id, each further one a token id. What is drawn
for them is part of an event.
-/

namespace S2OPC
namespace Channels
namespace Renewal

open List Function

structure ServerConnection where
  connected : Bool
  current : SecurityToken
  precedent : SecurityToken

abbrev Listener (max : Nat) := Fin max → Option ServerConnection

/-- `isOpened` is false if an `OPN` request is refused before the ids are drawn: by the state of the
listener, or by what the first request asks for. -/
inductive ListenerEvent (K : Type) (max : Nat) where
  | added (i : Fin max)
  | opn (i : Fin max) (cfg : ChannelConfig K) (env : RequestEnv) (req : OpnRequest) (isOpened : Bool)
  | closed (i : Fin max)

variable {K : Type} {max : Nat}

namespace ServerConnection

def sideOpen (cfg : ChannelConfig K) (env : RequestEnv) (req : OpnRequest) (isOpened : Bool)
    (c : ServerConnection) : Option ServerConnection :=
  if isOpened = false then none
  else if c.connected then
    if acceptsRenew cfg env req then
      (newToken cfg env c.current req).map fun new =>
        { c with current := new.1.token, precedent := c.current }
    else none
  else (firstToken cfg env req).map fun first => { c with connected := true, current := first.1.token }

structure Sound (c : ServerConnection) : Prop where
  unset : c.connected = false → c.current = ⟨0, 0⟩ ∧ c.precedent = ⟨0, 0⟩
  ids : c.connected = true → c.current.secureChannelId ≠ 0 ∧ c.current.tokenId ≠ 0 ∧
    c.current.tokenId ≠ c.precedent.tokenId

end ServerConnection

namespace Listener

def tokens (l : Listener max) : List SecurityToken :=
  (finRange max).filterMap fun i => (l i).map ServerConnection.current

def step (l : Listener max) : ListenerEvent K max → Listener max
  | .added i => if (l i).isNone then update l i (some ⟨false, ⟨0, 0⟩, ⟨0, 0⟩⟩) else l
  | .opn i cfg env req isOpened =>
    update l i ((l i).bind (·.sideOpen cfg { env with others := l.tokens } req isOpened))
  | .closed i => update l i none

def run (events : List (ListenerEvent K max)) : Listener max := events.foldl step fun _ => none

structure Gives (l : Listener max) (i : Fin max) (c c' : ServerConnection) : Prop where
  first : c.connected = false → c'.current.secureChannelId ≠ 0 ∧ c'.current.tokenId ≠ 0 ∧
    ∀ j ≠ i, ∀ d ∈ l j, c'.current.secureChannelId ≠ d.current.secureChannelId
  renewed : c.connected = true → c'.current.secureChannelId = c.current.secureChannelId ∧
    c'.current.tokenId ≠ 0 ∧ ∀ j, ∀ d ∈ l j, c'.current.tokenId ≠ d.current.tokenId

structure Distinct (l : Listener max) : Prop where
  sound : ∀ i, ∀ c ∈ l i, c.Sound
  channel : ∀ i, ∀ j ≠ i, ∀ c ∈ l i, ∀ d ∈ l j, c.connected = true →
    c.current.secureChannelId ≠ d.current.secureChannelId

variable {l : Listener max} {i : Fin max} {c c' : ServerConnection}

theorem mem_tokens (h : c ∈ l i) : c.current ∈ l.tokens :=
  mem_filterMap.mpr ⟨i, mem_finRange i, by rw [h]; rfl⟩

theorem opn_gives {cfg : ChannelConfig K} {env : RequestEnv} {req : OpnRequest} {isOpened : Bool}
    (h : c' ∈ (l i).bind (·.sideOpen cfg { env with others := l.tokens } req isOpened)) :
    c'.connected = true ∧ ∃ c ∈ l i,
      c'.precedent = (if c.connected then c.current else c.precedent) ∧ l.Gives i c c' := by
  obtain ⟨c, hc, h⟩ := Option.bind_eq_some_iff.mp h
  unfold ServerConnection.sideOpen at h
  split at h
  · cases h
  split at h
  · rename_i hconnected
    split at h
    · obtain ⟨⟨new, resp⟩, hnew, rfl⟩ := Option.map_eq_some_iff.mp h
      obtain ⟨⟨hchannel, hzero, hfresh⟩, -⟩ := newToken_spec hnew
      refine ⟨hconnected, c, hc, by simp [hconnected], by simp [hconnected],
        fun _ => ⟨hchannel, hzero, ?_⟩⟩
      intro j d hd heq; refine hfresh (mem_cons_of_mem _ ?_)
      rw [heq]
      exact mem_map_of_mem (mem_tokens hd)
    · cases h
  · rename_i hconnected
    obtain ⟨⟨first, resp⟩, hfirst, rfl⟩ := Option.map_eq_some_iff.mp h
    obtain ⟨⟨⟨hid, hchannel⟩, hfresh⟩, -⟩ := firstToken_spec hfirst
    refine ⟨rfl, c, hc, by simp [hconnected], fun _ => ⟨hchannel, hid, ?_⟩,
      fun h => absurd h hconnected⟩
    intro j _ d hd heq; refine hfresh ?_
    rw [heq]
    exact mem_map_of_mem (mem_tokens hd)

theorem Distinct.update (h : l.Distinct) {x : Option ServerConnection} (hsound : ∀ c ∈ x, c.Sound)
    (hne : ∀ c ∈ x, ∀ j ≠ i, ∀ d ∈ l j, c.connected = true ∨ d.connected = true →
      c.current.secureChannelId ≠ d.current.secureChannelId) : Distinct (update l i x) := by
  refine ⟨fun j c hc => ?_, fun j k hjk c hc d hd hconnected => ?_⟩
  · by_cases hj : j = i
    · subst hj; rw [update_self] at hc; exact hsound c hc
    · rw [update_of_ne hj] at hc; exact h.sound j c hc
  · by_cases hj : j = i
    · subst hj; rw [update_self] at hc; rw [update_of_ne hjk] at hd
      exact hne c hc k hjk d hd (.inl hconnected)
    · rw [update_of_ne hj] at hc
      by_cases hk : k = i
      · subst hk; rw [update_self] at hd; exact (hne d hd j hj c hc (.inr hconnected)).symm
      · rw [update_of_ne hk] at hd; exact h.channel j k hjk c hc d hd hconnected

theorem Distinct.step (h : l.Distinct) (e : ListenerEvent K max) : (l.step e).Distinct := by
  cases e with
  | added i =>
    rw [Listener.step]
    split
    · refine h.update ?_ ?_
      · rintro c ⟨⟩; exact ⟨fun _ => ⟨rfl, rfl⟩, fun h => by cases h⟩
      · rintro c ⟨⟩ j - d hd (hc | hconnected)
        · cases hc
        · exact ((h.sound j d hd).ids hconnected).1.symm
    · exact h
  | closed i => exact h.update (fun c hc => by cases hc) fun c hc => by cases hc
  | opn i cfg env req isOpened =>
    refine h.update (fun c' hc' => ?_) fun c' hc' j hj d hd _ => ?_
    · obtain ⟨hconnected, c, hc, hprecedent, hgives⟩ := opn_gives hc'
      refine ⟨fun h => by simp [hconnected] at h, fun _ => ?_⟩
      cases hcon : c.connected with
      | false =>
        obtain ⟨hchannel, htoken, -⟩ := hgives.first hcon
        refine ⟨hchannel, htoken, ?_⟩
        rw [hprecedent, hcon, if_neg Bool.false_ne_true, ((h.sound i c hc).unset hcon).2]
        exact htoken
      | true =>
        obtain ⟨hchannel, htoken, hfresh⟩ := hgives.renewed hcon
        rw [hprecedent, hcon, if_pos rfl, hchannel]
        exact ⟨((h.sound i c hc).ids hcon).1, htoken, hfresh i c hc⟩
    · obtain ⟨-, c, hc, -, hgives⟩ := opn_gives hc'
      cases hcon : c.connected with
      | false => exact (hgives.first hcon).2.2 j hj d hd
      | true => rw [(hgives.renewed hcon).1]; exact h.channel i j hj c hc d hd hcon

theorem distinct_run (events : List (ListenerEvent K max)) : (run events).Distinct := by
  refine foldlRecOn events step ⟨fun i c hc => (by cases hc), fun i j _ c hc => (by cases hc)⟩ ?_
  exact fun l h e _ => h.step e

/-- In every state of a run, the secure channel id given to a connection is not 0 and not that of
another one, and the token id given by a renewal is not 0 and not the current one of any connection.
So the secure channel ids differ, and the current token of a connection from its precedent one. -/
theorem ids_fresh (events : List (ListenerEvent K max)) :
    (run events).Distinct ∧ ∀ i (cfg : ChannelConfig K) env req isOpened, ∀ c ∈ run events i,
      ∀ c' ∈ (run events).step (.opn i cfg env req isOpened) i, (run events).Gives i c c' := by
  refine ⟨distinct_run events, fun i cfg env req isOpened c hc c' hc' => ?_⟩
  rw [Listener.step, update_self] at hc'
  obtain ⟨-, d, hd, -, hgives⟩ := opn_gives hc'
  rwa [Option.mem_unique hc hd]

def drawing (channelId tokenId : Nat) (renew : Bool) : ListenerEvent Unit 1 :=
  .opn 0 ⟨⟨0, fun _ _ => ()⟩, .none, 0, 0⟩
    ⟨true, true, fun _ => some channelId, fun _ => some tokenId, [], none, true, true⟩
    ⟨0, 0, renew, .none, []⟩ true

/-- The second renewal may draw the id of the precedent token, and gives it. -/
theorem renewal_gives_precedent :
    run [.added 0, drawing 5 1 false, drawing 5 2 true] 0 = some ⟨true, ⟨5, 2⟩, ⟨5, 1⟩⟩ ∧
      (run [.added 0, drawing 5 1 false, drawing 5 2 true]).step (drawing 5 1 true) 0 =
        some ⟨true, ⟨5, 1⟩, ⟨5, 2⟩⟩ :=
  ⟨rfl, rfl⟩

end Listener
end Renewal
end Channels
end S2OPC
