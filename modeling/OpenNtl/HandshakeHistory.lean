import OpenNtl.Handshake

/-! # What a history of handshakes proves

The checks of a hello and of a proof, and what must have come before each deed. A proof that was
accepted was made by a run of the peer that heard the challenge after it was drawn, and by no run
that another handshake rests on. What the peer's run had verified was a hello of this very run, or
of an identity that no honest node has.
-/
namespace OpenNtl

open AtomicProgram RuntimeM

variable {ι κ F : Type}

def Signal.challenge? (s : Signal F) : Option Bytes := (s.payload.get "challenge").bind Value.toBytes?

def Signal.proofFor? (s : Signal F) : Option Bytes := (s.payload.get "proof_for").bind Value.toBytes?

theorem except_bind_eq_ok {ε α β : Type} {x : Except ε α} {f : α → Except ε β} {b : β}
    (h : x >>= f = .ok b) : ∃ a, x = .ok a ∧ f a = .ok b := by
  cases x with
  | error e => cases h
  | ok a => exact ⟨a, rfl, h⟩

theorem payloadBytes_eq_ok {s : Signal F} {field : String} {bytes : Bytes}
    (read : payloadBytes s field = .ok bytes) :
    (s.payload.get field).bind Value.toBytes? = some bytes := by
  rw [payloadBytes] at read
  split at read
  · rename_i found
    rw [found, Except.ok.inj read]
  · cases read

namespace Deed

/-- The challenge is in a frame that was signed or verified here, or was drawn here. -/
def Names : Deed ι F → Bytes → Prop
  | .drew _ challenge, n => challenge = n
  | .helloed _ _ frame, n => frame.challenge? = some n
  | .greeted _ _ hello, n => hello.challenge? = some n
  | .proved _ _ frame, n => frame.proofFor? = some n
  | _, _ => False

instance (d : Deed ι F) (n : Bytes) : Decidable (d.Names n) :=
  match d with
  | .drew _ challenge => inferInstanceAs (Decidable (challenge = n))
  | .helloed _ _ frame => inferInstanceAs (Decidable (frame.challenge? = some n))
  | .greeted _ _ hello => inferInstanceAs (Decidable (hello.challenge? = some n))
  | .proved _ _ frame => inferInstanceAs (Decidable (frame.proofFor? = some n))
  | .completed .. => inferInstanceAs (Decidable False)
  | .emitted .. => inferInstanceAs (Decidable False)

def run : Deed ι F → Option (ι × Bytes)
  | .drew i m => some (i, m)
  | .helloed i m _ => some (i, m)
  | .greeted i m _ => some (i, m)
  | .proved i m _ => some (i, m)
  | .completed i m _ _ => some (i, m)
  | .emitted _ _ => none

def Signs (i : ι) (s : Signal F) : Deed ι F → Prop
  | .helloed j _ frame => j = i ∧ frame = s
  | .proved j _ frame => j = i ∧ frame = s
  | .emitted j frame => j = i ∧ frame = s
  | _ => False

end Deed

variable [Scalar F]

/-- The parties use one signature scheme over an encoding that loses nothing, and no key but its
own has the identity of an honest node. -/
structure Trusted (net : Network ι F) (c : Crypto F) : Prop where
  shared : ∀ i, (net i).crypto = c
  injective : ∀ x y bytes, c.toVec x = .ok bytes → c.toVec y = .ok bytes → x = y
  derived : ∀ i, c.nodeIdFromPublicKey (net i).identity.publicKey = (net i).identity.nodeId
  collisionFree : ∀ i key, c.nodeIdFromPublicKey key = (net i).identity.nodeId →
    key = (net i).identity.publicKey
  distinct : ∀ i j, (net i).identity.nodeId = (net j).identity.nodeId → i = j

/-- If the frame verifies under the key of an honest node, that node has signed its body. -/
def Genuine (net : Network ι F) (history : List (Deed ι F)) (s : Signal F) : Prop :=
  ∀ i bytes, (net i).crypto.signingBytes s = .ok bytes →
    (net i).crypto.verify bytes s.signature (net i).identity.publicKey = .ok true →
      ∃ d ∈ history, ∃ s', d.Signs i s' ∧ (net i).crypto.signingBytes s' = .ok bytes

theorem Genuine.later {net : Network ι F} {history : List (Deed ι F)} {s : Signal F}
    (genuine : Genuine net history s) (more : List (Deed ι F)) :
    Genuine net (history ++ more) s := by
  intro i bytes encoded verified
  obtain ⟨d, hd, s', signs, same⟩ := genuine i bytes encoded verified
  exact ⟨d, List.mem_append_left more hd, s', signs, same⟩

theorem Crypto.verifySignal_eq_true {c : Crypto F} {s : Signal F} {key : Bytes}
    (verified : c.verifySignal s key = .ok true) :
    ∃ bytes, c.signingBytes s = .ok bytes ∧ c.verify bytes s.signature key = .ok true := by
  cases encoded : c.signingBytes s with
  | error e =>
    rw [Crypto.verifySignal, encoded] at verified
    cases verified
  | ok bytes =>
    rw [Crypto.verifySignal, encoded] at verified
    exact ⟨bytes, rfl, verified⟩

section Checks

variable {net : Network ι F} {c : Crypto F} {history : List (Deed ι F)}

/-- Behind a frame that verifies under an honest key there is one with the same body. -/
theorem Genuine.signed (trusted : Trusted net c) {s : Signal F} (genuine : Genuine net history s)
    {i j : ι} (verified : (net j).crypto.verifySignal s (net i).identity.publicKey = .ok true) :
    ∃ d ∈ history, ∃ s', d.Signs i s' ∧ s'.SameBody s := by
  rw [trusted.shared j, ← trusted.shared i] at verified
  obtain ⟨bytes, encoded, holds⟩ := Crypto.verifySignal_eq_true verified
  obtain ⟨d, hd, s', signs, same⟩ := genuine i bytes encoded holds
  refine ⟨d, hd, s', signs, Signal.unsigned_eq_iff.mp ?_⟩
  rw [trusted.shared i] at encoded same
  exact trusted.injective _ _ bytes same encoded

/-- A frame that passed `verify_handshake_frame`. -/
structure Verified (rt : Runtime F) (s : Signal F) (peer : PeerIdentity) : Prop where
  discovery : s.signalType = .discovery
  origin : s.origin = peer.nodeId
  signature : rt.crypto.verifySignal s peer.publicKey = .ok true

theorem verifyHandshakeFrame_ok {rt : Runtime F} {s : Signal F} {key : Bytes} {expected : NodeId}
    {what : String} (ok : rt.verifyHandshakeFrame s key expected what = .ok ()) :
    Verified rt s ⟨expected, key⟩ := by
  rw [Runtime.verifyHandshakeFrame] at ok
  split at ok
  · cases ok
  · rename_i discovery
    split at ok
    · cases ok
    · rename_i origin
      split at ok
      · cases ok
      · cases ok
      · rename_i signature
        exact ⟨not_not.mp discovery, not_not.mp origin, signature⟩

/-- A hello that passed every check, from this peer and with this challenge. -/
structure Greeting (rt : Runtime F) (hello : Signal F) (peer : PeerIdentity) (challenge : Bytes) :
    Prop where
  verified : Verified rt hello peer
  derived : rt.crypto.nodeIdFromPublicKey peer.publicKey = peer.nodeId
  other : peer.nodeId ≠ rt.identity.nodeId
  challenge : hello.challenge? = some challenge

theorem checkHello_ok {rt : Runtime F} {hello : Signal F} {peer : PeerIdentity} {challenge : Bytes}
    (ok : rt.checkHello hello = .ok (peer, challenge)) : Greeting rt hello peer challenge := by
  rw [Runtime.checkHello] at ok
  obtain ⟨key, read, ok⟩ := except_bind_eq_ok ok
  dsimp only at ok
  split at ok
  · cases ok
  · obtain ⟨u, checked, ok⟩ := except_bind_eq_ok ok
    split at ok
    · cases ok
    · rename_i other
      obtain ⟨asked, read', ok⟩ := except_bind_eq_ok ok
      split at ok
      · cases ok
      · obtain ⟨rfl, rfl⟩ := Prod.mk.inj (Except.ok.inj ok)
        exact ⟨verifyHandshakeFrame_ok checked, rfl, other, payloadBytes_eq_ok read'⟩

theorem checkProof_ok {rt : Runtime F} {proof : Signal F} {peer : PeerIdentity} {challenge : Bytes}
    (ok : rt.checkProof peer challenge proof = .ok ()) :
    Verified rt proof peer ∧ proof.proofFor? = some challenge := by
  rw [Runtime.checkProof] at ok
  obtain ⟨u, checked, ok⟩ := except_bind_eq_ok ok
  obtain ⟨echoed, read, ok⟩ := except_bind_eq_ok ok
  split at ok
  · cases ok
  · rename_i same
    obtain rfl := not_not.mp same
    exact ⟨verifyHandshakeFrame_ok checked, payloadBytes_eq_ok read⟩

end Checks

/-- A Discovery that the node has made for a handshake. -/
structure Made (rt : Runtime F) (s : Signal F) (payload : Value) : Prop where
  discovery : s.signalType = .discovery
  origin : s.origin = rt.identity.nodeId
  payload : s.payload = payload

namespace Made

variable {rt : Runtime F} {s : Signal F} {key asked : Bytes}

omit [Scalar F] in
theorem challenge (made : Made rt s (helloPayload key asked)) : s.challenge? = some asked := by
  rw [Signal.challenge?, made.payload]
  exact Value.toBytes_ofBytes asked

omit [Scalar F] in
theorem proves_nothing (made : Made rt s (helloPayload key asked)) : s.proofFor? = none := by
  rw [Signal.proofFor?, made.payload]
  rfl

omit [Scalar F] in
theorem proofFor (made : Made rt s (proofPayload asked)) : s.proofFor? = some asked := by
  rw [Signal.proofFor?, made.payload]
  exact Value.toBytes_ofBytes asked

omit [Scalar F] in
theorem asks_nothing (made : Made rt s (proofPayload asked)) : s.challenge? = none := by
  rw [Signal.challenge?, made.payload]
  rfl

end Made

def Justified (net : Network ι F) (older : List (Deed ι F)) : Deed ι F → Prop
  | .drew _ challenge => ∀ d ∈ older, ¬ d.Names challenge
  | .helloed i challenge frame => .drew i challenge ∈ older ∧
      Made (net i) frame (helloPayload (net i).identity.publicKey challenge)
  | .greeted i challenge hello => .drew i challenge ∈ older ∧
      (∀ hello', .greeted i challenge hello' ∉ older) ∧ Genuine net older hello ∧
      ∃ peer asked, Greeting (net i) hello peer asked
  | .proved i challenge frame => .drew i challenge ∈ older ∧
      (∀ frame', .proved i challenge frame' ∉ older) ∧
      ∃ hello peer asked, .greeted i challenge hello ∈ older ∧
        Greeting (net i) hello peer asked ∧ Made (net i) frame (proofPayload asked)
  | .completed i challenge peer proof => .drew i challenge ∈ older ∧ Genuine net older proof ∧
      Verified (net i) proof peer ∧ proof.proofFor? = some challenge ∧
      ∃ hello asked, .greeted i challenge hello ∈ older ∧ Greeting (net i) hello peer asked
  | .emitted _ frame => frame.signalType ≠ .discovery

def SoundHistory (net : Network ι F) (ds : List (Deed ι F)) : Prop :=
  ∀ older d newer, ds = older ++ d :: newer → Justified net older d

namespace SoundHistory

variable {net : Network ι F} {ds : List (Deed ι F)}

theorem nil : SoundHistory net ([] : List (Deed ι F)) := by
  intro older d newer split
  cases older with
  | nil => cases split
  | cons e older => cases split

theorem snoc (sound : SoundHistory net ds) {d : Deed ι F} (justified : Justified net ds d) :
    SoundHistory net (ds ++ [d]) := by
  intro older e newer split
  rcases List.eq_nil_or_concat newer with rfl | ⟨rest, last, rfl⟩
  · obtain ⟨rfl, same⟩ := List.append_inj' split rfl
    rw [← (List.cons.inj same).1]
    exact justified
  · rw [List.concat_eq_append, ← List.cons_append, ← List.append_assoc] at split
    exact sound older e rest (List.append_inj' split rfl).1

theorem justified (sound : SoundHistory net ds) {d : Deed ι F} (here : d ∈ ds) :
    ∃ older newer, ds = older ++ d :: newer ∧ Justified net older d := by
  obtain ⟨older, newer, split⟩ := List.append_of_mem here
  exact ⟨older, newer, split, sound older d newer split⟩

theorem older (sound : SoundHistory net ds) {older newer : List (Deed ι F)} (split : ds = older ++ newer) :
    SoundHistory net older := by
  rintro before d after rfl
  rw [List.append_assoc] at split
  exact sound before d (after ++ newer) split

theorem drawn_before (sound : SoundHistory net ds) {older newer : List (Deed ι F)} {d : Deed ι F}
    (split : ds = older ++ d :: newer) {challenge : Bytes} (names : d.Names challenge) {i : ι}
    (other : d ≠ .drew i challenge) (drawn : .drew i challenge ∈ ds) :
    .drew i challenge ∈ older := by
  rw [split] at drawn
  rcases List.mem_append.mp drawn with before | after
  · exact before
  · rcases List.mem_cons.mp after with same | after
    · exact absurd same.symm other
    · obtain ⟨between, last, rfl⟩ := List.append_of_mem after
      have fresh := sound (older ++ d :: between) (.drew i challenge) last (by simp [split])
      exact absurd names (fresh d (by simp))

theorem once (sound : SoundHistory net ds) {P : Deed ι F → Prop}
    (first : ∀ older d, Justified net older d → P d → ∀ e ∈ older, ¬ P e)
    {d e : Deed ι F} (hd : d ∈ ds) (he : e ∈ ds) (kind : P d) (kind' : P e) : d = e := by
  obtain ⟨older, newer, split, justified⟩ := sound.justified hd
  rw [split] at he
  rcases List.mem_append.mp he with before | after
  · exact absurd kind' (first older d justified kind e before)
  · rcases List.mem_cons.mp after with same | after
    · exact same.symm
    · obtain ⟨between, last, rfl⟩ := List.append_of_mem after
      have later := sound (older ++ d :: between) e last (by simp [split])
      exact absurd kind (first _ e later kind' d (by simp))

theorem drawn_of_run (sound : SoundHistory net ds) {d : Deed ι F} (here : d ∈ ds) {i : ι} {m : Bytes}
    (run : d.run = some (i, m)) : .drew i m ∈ ds := by
  obtain ⟨older, newer, rfl, justified⟩ := sound.justified here
  cases d with
  | drew j n =>
    obtain ⟨rfl, rfl⟩ := Prod.mk.inj (Option.some.inj run)
    exact here
  | helloed j n s =>
    obtain ⟨rfl, rfl⟩ := Prod.mk.inj (Option.some.inj run)
    exact List.mem_append_left _ justified.1
  | greeted j n s =>
    obtain ⟨rfl, rfl⟩ := Prod.mk.inj (Option.some.inj run)
    exact List.mem_append_left _ justified.1
  | proved j n s =>
    obtain ⟨rfl, rfl⟩ := Prod.mk.inj (Option.some.inj run)
    exact List.mem_append_left _ justified.1
  | completed j n peer s =>
    obtain ⟨rfl, rfl⟩ := Prod.mk.inj (Option.some.inj run)
    exact List.mem_append_left _ justified.1
  | emitted j s => cases run

theorem drawn_once (sound : SoundHistory net ds) {challenge : Bytes} {i j : ι}
    (first : .drew i challenge ∈ ds) (second : .drew j challenge ∈ ds) : i = j := by
  have same := sound.once (P := fun d => ∃ k, d = .drew k challenge) ?_ first second ⟨i, rfl⟩
    ⟨j, rfl⟩
  · exact (Deed.drew.inj same).1
  · rintro older d fresh ⟨k, rfl⟩ e he ⟨k', rfl⟩
    exact fresh _ he rfl

theorem greeted_once (sound : SoundHistory net ds) {a : ι} {m : Bytes} {hello hello' : Signal F}
    (first : .greeted a m hello ∈ ds) (second : .greeted a m hello' ∈ ds) : hello = hello' := by
  have same := sound.once (P := fun d => ∃ s, d = .greeted a m s) ?_ first second ⟨hello, rfl⟩
    ⟨hello', rfl⟩
  · exact (Deed.greeted.inj same).2.2
  · rintro older d justified ⟨s, rfl⟩ e he ⟨s', rfl⟩
    exact justified.2.1 s' he

end SoundHistory

/-- What stands behind a handshake that node `b` completed with its challenge `n`: run `m` of node
`a`, the hello that it had verified and the answer that it signed. -/
structure Backed (net : Network ι F) (ds : List (Deed ι F)) (b : ι) (n : Bytes)
    (peer : PeerIdentity) (proof : Signal F) (a : ι) (m : Bytes) (hello answer : Signal F) :
    Prop where
  order : [.drew b n, .greeted a m hello, .proved a m answer, .completed b n peer proof].Sublist ds
  body : answer.SameBody proof
  asked : hello.challenge? = some n
  /-- Either that hello was the one `b` had signed in this run, or it came from someone else. -/
  heard : (hello.origin = (net b).identity.nodeId ∧
      ∃ s, [.helloed b n s, .greeted a m hello].Sublist ds ∧ s.SameBody hello) ∨
    ∀ i, hello.origin ≠ (net i).identity.nodeId

section Agreement

variable {net : Network ι F} {c : Crypto F} {ds : List (Deed ι F)}

omit [Scalar F] in
theorem Signal.SameBody.challenge? {s t : Signal F} (same : s.SameBody t) :
    s.challenge? = t.challenge? := by
  rw [Signal.challenge?, Signal.challenge?, same.payload]

omit [Scalar F] in
theorem Signal.SameBody.proofFor? {s t : Signal F} (same : s.SameBody t) :
    s.proofFor? = t.proofFor? := by
  rw [Signal.proofFor?, Signal.proofFor?, same.payload]

/-- A Discovery with a proof that has the signature of an honest node is a proof it made. -/
theorem SoundHistory.proved_of_genuine (trusted : Trusted net c) (sound : SoundHistory net ds) {proof : Signal F}
    (genuine : Genuine net ds proof) {a b : ι} {peer : PeerIdentity} {n : Bytes}
    (verified : Verified (net b) proof peer) (key : peer.publicKey = (net a).identity.publicKey)
    (echoes : proof.proofFor? = some n) :
    ∃ m answer, .proved a m answer ∈ ds ∧ answer.SameBody proof := by
  obtain ⟨d, hd, answer, signs, body⟩ := genuine.signed trusted (key ▸ verified.signature)
  obtain ⟨older, newer, -, justified⟩ := sound.justified hd
  cases d with
  | helloed i m frame =>
    obtain ⟨rfl, rfl⟩ := signs
    have none := justified.2.proves_nothing
    rw [body.proofFor?, echoes] at none
    cases none
  | proved i m frame =>
    obtain ⟨rfl, rfl⟩ := signs
    exact ⟨m, frame, hd, body⟩
  | emitted i frame =>
    obtain ⟨rfl, rfl⟩ := signs
    exact absurd (body.signalType.trans verified.discovery) justified
  | drew i m => cases signs
  | greeted i m hello => cases signs
  | completed i m peer proof => cases signs

/-- A Discovery with a challenge that has the signature of an honest node is a hello it made. -/
theorem SoundHistory.helloed_of_genuine (trusted : Trusted net c) (sound : SoundHistory net ds)
    {hello : Signal F} (genuine : Genuine net ds hello) {a b : ι} {peer : PeerIdentity} {n : Bytes}
    (greeting : Greeting (net b) hello peer n)
    (key : peer.publicKey = (net a).identity.publicKey) :
    ∃ s, .helloed a n s ∈ ds ∧ .drew a n ∈ ds ∧ s.SameBody hello := by
  obtain ⟨d, hd, s, signs, body⟩ := genuine.signed trusted (key ▸ greeting.verified.signature)
  obtain ⟨older, newer, split, justified⟩ := sound.justified hd
  have asks := body.challenge?.trans greeting.challenge
  cases d with
  | helloed i m frame =>
    obtain ⟨rfl, rfl⟩ := signs
    obtain rfl := Option.some.inj (justified.2.challenge.symm.trans asks)
    exact ⟨frame, hd, split ▸ List.mem_append_left _ justified.1, body⟩
  | proved i m frame =>
    obtain ⟨rfl, rfl⟩ := signs
    obtain ⟨-, -, h, q, asked, -, -, made⟩ := justified
    rw [made.asks_nothing] at asks
    cases asks
  | emitted i frame =>
    obtain ⟨rfl, rfl⟩ := signs
    exact absurd (body.signalType.trans greeting.verified.discovery) justified
  | drew i m => cases signs
  | greeted i m hello => cases signs
  | completed i m peer proof => cases signs

omit [Scalar F] in
theorem Trusted.key_of_id (trusted : Trusted net c) {a b : ι} {peer : PeerIdentity}
    (derived : (net b).crypto.nodeIdFromPublicKey peer.publicKey = peer.nodeId)
    (same : peer.nodeId = (net a).identity.nodeId) :
    peer.publicKey = (net a).identity.publicKey := by
  rw [trusted.shared] at derived
  exact trusted.collisionFree a _ (derived.trans same)

/-- A handshake that was completed with an honest peer is backed by a run of that peer. -/
theorem SoundHistory.backed (trusted : Trusted net c) (sound : SoundHistory net ds) {a b : ι} {n : Bytes}
    {peer : PeerIdentity} {proof : Signal F} (here : .completed b n peer proof ∈ ds)
    (honest : peer.nodeId = (net a).identity.nodeId) :
    ∃ m hello answer, Backed net ds b n peer proof a m hello answer := by
  obtain ⟨older, newer, split, drawn, genuine, verified, echoes, met, asked, -, greeted⟩ :=
    sound.justified here
  have before := sound.older split
  have key := trusted.key_of_id greeted.derived honest
  obtain ⟨m, answer, signed, body⟩ := before.proved_of_genuine trusted genuine verified key echoes
  obtain ⟨o₁, o₂, splitProved, -, -, hello, peer', n', heard, greeting, made⟩ :=
    before.justified signed
  obtain rfl : n' = n :=
    Option.some.inj (made.proofFor.symm.trans (body.proofFor?.trans echoes))
  have middle := before.older splitProved
  obtain ⟨p₁, p₂, splitGreeted, -, -, genuineHello, -⟩ := middle.justified heard
  have whole : ds = p₁ ++ .greeted a m hello ::
      (p₂ ++ .proved a m answer :: (o₂ ++ .completed b n' peer proof :: newer)) := by
    rw [split, splitProved, splitGreeted]
    simp only [List.append_assoc, List.cons_append]
  -- The draw comes before the hello that names it, and so before the proof.
  have first : .drew b n' ∈ p₁ :=
    sound.drawn_before whole greeting.challenge (by intro same; cases same)
      (split ▸ List.mem_append_left _ drawn)
  refine ⟨m, hello, answer, ?_, body, greeting.challenge, ?_⟩
  · rw [whole]
    refine (List.singleton_sublist.mpr first).append (.cons_cons _ ?_)
    refine .trans (.cons_cons _ ?_) (List.sublist_append_right _ _)
    exact List.singleton_sublist.mpr (by simp)
  · by_cases someone : ∃ i, hello.origin = (net i).identity.nodeId
    · obtain ⟨i, origin⟩ := someone
      have own := trusted.key_of_id greeting.derived
        (greeting.verified.origin.symm.trans origin)
      obtain ⟨s, sent, drew, same⟩ :=
        (middle.older splitGreeted).helloed_of_genuine trusted genuineHello greeting own
      obtain rfl := (sound.older whole).drawn_once drew first
      refine Or.inl ⟨origin, s, ?_, same⟩
      rw [whole]
      exact (List.singleton_sublist.mpr sent).append (.cons_cons _ (List.nil_sublist _))
    · exact Or.inr fun i origin => someone ⟨i, origin⟩

theorem SoundHistory.backs_once (sound : SoundHistory net ds) {b b' a : ι} {n n' m : Bytes}
    {peer peer' : PeerIdentity} {proof proof' hello hello' answer answer' : Signal F}
    (backed : Backed net ds b n peer proof a m hello answer)
    (backed' : Backed net ds b' n' peer' proof' a m hello' answer') : b = b' ∧ n = n' := by
  have drawn : Deed.drew b n ∈ ds := backed.order.subset (by simp)
  have drawn' : Deed.drew b' n' ∈ ds := backed'.order.subset (by simp)
  have heard : Deed.greeted a m hello ∈ ds := backed.order.subset (by simp)
  have heard' : Deed.greeted a m hello' ∈ ds := backed'.order.subset (by simp)
  obtain rfl := sound.greeted_once heard heard'
  obtain rfl := Option.some.inj (backed.asked.symm.trans backed'.asked)
  exact ⟨sound.drawn_once drawn drawn', rfl⟩

end Agreement

end OpenNtl
