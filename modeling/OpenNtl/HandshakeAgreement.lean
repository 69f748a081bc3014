import OpenNtl.HandshakeHistory

/-! # Handshakes side by side

Every interleaving of handshakes, with a network that may hand over anything but a signature of an
honest node that is not on record. A challenge that is drawn has been in no frame before.
-/
namespace OpenNtl

open AtomicProgram RuntimeM

variable {ι κ F : Type} [Scalar F]

section Runs

variable [DecidableEq ι] (net : Network ι F) (home : κ → ι)

def Network.Sessions : κ → HandM ι κ F Unit → Prop := fun t p => p = net.openSession home t

def SessionsKept (w w' : HandState ι κ F) : Prop :=
  ∀ i peer session', (w'.nodes i).sessions.lookup peer = some session' →
    ∃ session, (w.nodes i).sessions.lookup peer = some session ∧
      session'.publicKey = session.publicKey

/-- What the network and the rest of the nodes may do. Anything can be read next, but what has the
signature of an honest node is on record. -/
structure HandOutside (w w' : HandState ι κ F) : Prop where
  sessions : SessionsKept w w'
  inbox : ∀ t s, w'.inbox t = .frame s → Genuine net w'.history s
  history : w'.history = w.history ∨ ∃ i s, s.signalType ≠ .discovery ∧
    w'.history = w.history ++ [.emitted i s]

def FreshDraws (w w' : HandState ι κ F) : Prop :=
  ∀ i challenge, w'.history = w.history ++ [.drew i challenge] →
    ∀ d ∈ w.history, ¬ d.Names challenge

/-- No handshake has begun and there is no session. -/
structure Unopened (P : Pool κ (HandState ι κ F) SessionError Unit) : Prop where
  idle : P.Quiescent
  history : P.state.history = []
  inbox : ∀ t s, P.state.inbox t ≠ .frame s
  sessions : ∀ i, (P.state.nodes i).sessions = ∅

abbrev Network.HandRun [DecidableEq κ] : Pool κ (HandState ι κ F) SessionError Unit →
    Pool κ (HandState ι κ F) SessionError Unit → Prop :=
  Pool.Run (net.Sessions home) (HandOutside net) FreshDraws

inductive Stage (ι F : Type) where
  | idle
  | drawn (node : ι) (challenge : Bytes)
  | hearing (node : ι) (challenge : Bytes) (hello : Signal F)
  | greeted (node : ι) (challenge : Bytes) (hello : Signal F)
  | proved (node : ι) (challenge : Bytes) (hello : Signal F)
  | answered (node : ι) (challenge : Bytes) (hello proof : Signal F)
  | completed (node : ι) (challenge : Bytes) (peer : PeerIdentity)

def Stage.run : Stage ι F → Option (ι × Bytes)
  | .idle => none
  | .drawn i m => some (i, m)
  | .hearing i m _ => some (i, m)
  | .greeted i m _ => some (i, m)
  | .proved i m _ => some (i, m)
  | .answered i m _ _ => some (i, m)
  | .completed i m _ => some (i, m)

inductive Advance : Stage ι F → Deed ι F → Stage ι F → Prop
  | draw {l : Stage ι F} {i : ι} {m : Bytes} : Advance l (.drew i m) (.drawn i m)
  | hello {i : ι} {m : Bytes} {frame : Signal F}
      (made : Made (net i) frame (helloPayload (net i).identity.publicKey m)) :
      Advance (.drawn i m) (.helloed i m frame) (.drawn i m)
  | greet {i : ι} {m : Bytes} {hello : Signal F} {peer : PeerIdentity} {asked : Bytes}
      (greeting : Greeting (net i) hello peer asked) :
      Advance (.hearing i m hello) (.greeted i m hello) (.greeted i m hello)
  | prove {i : ι} {m : Bytes} {hello frame : Signal F} {peer : PeerIdentity} {asked : Bytes}
      (greeting : Greeting (net i) hello peer asked)
      (made : Made (net i) frame (proofPayload asked)) :
      Advance (.greeted i m hello) (.proved i m frame) (.proved i m hello)
  | complete {i : ι} {m : Bytes} {hello proof : Signal F} {peer : PeerIdentity} {asked : Bytes}
      (greeting : Greeting (net i) hello peer asked) (verified : Verified (net i) proof peer)
      (echoes : proof.proofFor? = some m) :
      Advance (.answered i m hello proof) (.completed i m peer proof) (.completed i m peer)

/-- What a read adds to what the handshake knows. -/
inductive Hears (s : Signal F) : Stage ι F → Stage ι F → Prop
  | hello {i : ι} {m : Bytes} : Hears s (.drawn i m) (.hearing i m s)
  | proof {i : ι} {m : Bytes} {hello : Signal F} :
      Hears s (.proved i m hello) (.answered i m hello s)

/-- Everything one step of a session task can do. -/
inductive HandMove (l : Stage ι F) (w : HandState ι κ F) :
    Stage ι F → HandState ι κ F → Prop
  | quiet {w' : HandState ι κ F} (history : w'.history = w.history) (inbox : w'.inbox = w.inbox)
      (sessions : SessionsKept w w') : HandMove l w l w'
  | note {l' : Stage ι F} {d : Deed ι F} (advance : Advance net l d l') :
      HandMove l w l' { w with history := w.history ++ [d] }
  | hear {l' : Stage ι F} {t : κ} {s : Signal F} (read : w.inbox t = .frame s)
      (hears : Hears s l l') : HandMove l w l' w
  | register {w' : HandState ι κ F} {i : ι} {m : Bytes} {peer : PeerIdentity}
      (stage : l = .completed i m peer) (history : w'.history = w.history)
      (inbox : w'.inbox = w.inbox)
      (sessions : ∀ j q session', (w'.nodes j).sessions.lookup q = some session' →
        (∃ session, (w.nodes j).sessions.lookup q = some session ∧
          session'.publicKey = session.publicKey) ∨
        j = i ∧ q = peer.nodeId ∧ session'.publicKey = peer.publicKey) : HandMove l w .idle w'

section Program

open HandM

variable {net home} {l l' : Stage ι F}

abbrev HandObeys (net : Network ι F) {α : Type} (p : HandM ι κ F α) (Q : α → Stage ι F → Prop)
    (l : Stage ι F) : Prop :=
  p.Obeys (HandMove net) (fun _ => True) Q l

omit [Scalar F] [DecidableEq ι] in
theorem SessionsKept.refl (w : HandState ι κ F) : SessionsKept w w :=
  fun _ _ session' found => ⟨session', found, rfl⟩

omit [Scalar F] in
theorem SessionsKept.node (w : HandState ι κ F) (i : ι) (node : NodeState F) :
    SessionsKept w (w.setNode i { w.nodes i with node := node }) := by
  intro j peer session' found
  refine ⟨session', ?_, rfl⟩
  by_cases here : j = i
  · subst j
    rwa [HandState.setNode_self] at found
  · rwa [HandState.setNode_other w _ here] at found

theorem callAt_obeys {α : Type} {i : ι} {p : NodeM F α} {Q : Except NodeError α → Stage ι F → Prop}
    (answer : ∀ s, Q (p.run s).1 l) : HandObeys net (callAt i p : HandM ι κ F _) Q l := by
  refine Prog.Obeys.of_act fun w => ⟨l, ?_, answer _⟩
  exact .quiet rfl rfl (SessionsKept.node w i _)

omit [DecidableEq ι] in
theorem read_obeys {α : Type} {f : HandState ι κ F → α} {Q : α → Stage ι F → Prop}
    (answer : ∀ w, Q (f w) l) : HandObeys net (.read f : HandM ι κ F α) Q l :=
  Prog.Obeys.of_act fun w => ⟨l, .quiet rfl rfl (SessionsKept.refl w), answer w⟩

omit [DecidableEq ι] in
theorem note_obeys {d : Deed ι F} (advance : Advance net l d l') :
    HandObeys net (note d : HandM ι κ F Unit) (fun _ => (· = l')) l :=
  Prog.Obeys.of_act fun _ => ⟨l', .note advance, rfl⟩

omit [DecidableEq ι] in
theorem checked_obeys {α : Type} {r : Except RuntimeError α} {Q : α → Stage ι F → Prop}
    (ok : ∀ a, r = .ok a → Q a l) : HandObeys net (checked r : HandM ι κ F α) Q l := by
  cases r with
  | error e => exact Prog.Obeys.of_throw trivial
  | ok a => exact Prog.Obeys.of_pure (ok a rfl)

omit [DecidableEq ι] in
theorem readHandshakeFrame_obeys {t : κ} {what : String} {next : Signal F → Stage ι F}
    (hears : ∀ s, Hears s l (next s)) :
    HandObeys net (readHandshakeFrame t what) (fun s l' => l' = next s) l := by
  intro w
  cases read : w.inbox t with
  | timedOut =>
    refine ⟨l, .quiet rfl rfl (SessionsKept.refl w), ?_⟩
    simp only [read]
    exact Prog.Obeys.of_throw trivial
  | failed e =>
    refine ⟨l, .quiet rfl rfl (SessionsKept.refl w), ?_⟩
    simp only [read]
    exact Prog.Obeys.of_throw trivial
  | frame s =>
    refine ⟨next s, .hear read (hears s), ?_⟩
    simp only [read]
    exact Prog.Obeys.of_pure rfl

theorem writeHandshakeFrame_obeys {t : κ} {payload : Value} {deed : Signal F → Deed ι F}
    (advance : ∀ s, Made (net (home t)) s payload → Advance net l (deed s) l') :
    HandObeys net (net.writeHandshakeFrame home t payload deed) (fun _ => (· = l')) l := by
  refine (callAt_obeys (l := l) (Q := fun r l₁ => l₁ = l ∧ ∀ s, r = .ok s →
    s.signalType = .discovery ∧ s.origin = (net (home t)).identity.nodeId ∧
      s.payload = payload) fun s => ⟨rfl, ?_⟩).bind ?_
  · intro signal made
    obtain ⟨now, id, rfl⟩ := (net (home t)).node.emit_builds (Prod.ext made rfl)
    exact ⟨rfl, (net (home t)).same, rfl⟩
  · rintro r l₁ ⟨rfl, made⟩
    cases r with
    | error e => exact Prog.Obeys.of_throw trivial
    | ok signal =>
      obtain ⟨discovery, origin, same⟩ := made signal rfl
      dsimp only
      cases signing : (net (home t)).crypto.signSignal signal
          (net (home t)).identity.privateKey with
      | error e => exact Prog.Obeys.of_throw trivial
      | ok signed =>
        have body := Crypto.signSignal_signs signing
        refine (note_obeys (advance signed ?_)).bind ?_
        · obtain ⟨signature, rfl⟩ := body
          exact ⟨discovery, origin, same⟩
        · rintro - l₂ rfl
          refine (read_obeys (Q := fun _ => (· = l₂)) fun _ => rfl).bind ?_
          rintro fault l₃ rfl
          cases fault with
          | some e => exact Prog.Obeys.of_throw trivial
          | none => exact Prog.Obeys.of_pure rfl

theorem handshake_obeys (t : κ) : HandObeys net (net.handshake home t)
    (fun r l' => l' = .completed (home t) r.1 r.2.1) l := by
  refine (Prog.Obeys.of_act (Q := fun m l₁ => l₁ = .drawn (home t) m) fun w =>
    ⟨.drawn (home t) w.entropy, .note .draw, rfl⟩).bind ?_
  rintro m - rfl
  refine (writeHandshakeFrame_obeys fun s made => .hello made).bind ?_
  rintro - - rfl
  refine (readHandshakeFrame_obeys fun s => .hello).bind ?_
  rintro hello - rfl
  refine (checked_obeys (Q := fun r l₁ => l₁ = .hearing (home t) m hello ∧
    Greeting (net (home t)) hello r.1 r.2) fun r ok => ⟨rfl, checkHello_ok ok⟩).bind ?_
  rintro ⟨peer, asked⟩ - ⟨rfl, greeting⟩
  refine (note_obeys (.greet greeting)).bind ?_
  rintro - - rfl
  refine (writeHandshakeFrame_obeys fun s made => .prove greeting made).bind ?_
  rintro - - rfl
  refine (readHandshakeFrame_obeys fun s => .proof).bind ?_
  rintro proof - rfl
  refine (checked_obeys (Q := fun _ l₁ => l₁ = .answered (home t) m hello proof ∧
    Verified (net (home t)) proof peer ∧ proof.proofFor? = some m)
    fun r ok => ⟨rfl, checkProof_ok ok⟩).bind ?_
  rintro - - ⟨rfl, verified, echoes⟩
  refine (callAt_obeys (Q := fun _ l₁ => l₁ = .answered (home t) m hello proof)
    fun s => rfl).bind ?_
  rintro r - rfl
  cases r with
  | error e => exact Prog.Obeys.of_throw trivial
  | ok record =>
    refine (note_obeys (.complete greeting verified echoes)).bind ?_
    rintro - - rfl
    exact Prog.Obeys.of_pure rfl

theorem register_moves (w : HandState ι κ F) (i : ι) (m : Bytes) (peer : PeerIdentity) :
    HandMove net (.completed i m peer) w .idle (w.setNode i { w.nodes i with
      sessions := (w.nodes i).sessions.insert peer.nodeId ⟨[], false, peer.publicKey⟩ }) := by
  refine .register rfl rfl rfl fun j q session' found => ?_
  by_cases here : j = i
  · subst j
    rw [HandState.setNode_self] at found
    by_cases mine : q = peer.nodeId
    · rw [mine, AList.lookup_insert] at found
      obtain rfl := Option.some.inj found
      exact Or.inr ⟨rfl, mine, rfl⟩
    · rw [AList.lookup_insert_ne mine] at found
      exact Or.inl ⟨session', found, rfl⟩
  · rw [HandState.setNode_other w _ here] at found
    exact Or.inl ⟨session', found, rfl⟩

theorem openSession_obeys (t : κ) : HandObeys net (net.openSession home t) (fun _ _ => True) l := by
  refine (handshake_obeys t).bind ?_
  rintro ⟨m, peer, proof⟩ - rfl
  refine (Prog.Obeys.of_act (Q := fun _ _ => True) fun w => ?_).bind ?_
  · dsimp only
    cases (w.nodes (home t)).sessions.lookup peer.nodeId with
    | none => exact ⟨.idle, register_moves w _ m peer, trivial⟩
    | some existing =>
      by_cases live : existing.closed = false
      · simp only [live, if_true]
        exact ⟨_, .quiet rfl rfl (SessionsKept.refl w), trivial⟩
      · simp only [live]
        exact ⟨.idle, register_moves w _ m peer, trivial⟩
  · rintro refused l₁ -
    cases refused with
    | true => exact Prog.Obeys.of_throw trivial
    | false => exact Prog.Obeys.of_pure trivial

end Program

def Stage.Holds (ds : List (Deed ι F)) : Stage ι F → Prop
  | .idle => True
  | .drawn i m => (∀ s, .greeted i m s ∉ ds) ∧ ∀ s, .proved i m s ∉ ds
  | .hearing i m hello =>
    (∀ s, .greeted i m s ∉ ds) ∧ (∀ s, .proved i m s ∉ ds) ∧ Genuine net ds hello
  | .greeted i m hello => .greeted i m hello ∈ ds ∧ ∀ s, .proved i m s ∉ ds
  | .proved i m hello => .greeted i m hello ∈ ds
  | .answered i m hello proof => .greeted i m hello ∈ ds ∧ Genuine net ds proof
  | .completed i m peer => ∃ proof, .completed i m peer proof ∈ ds

def Handshaken (ds : List (Deed ι F)) (i : ι) (peer : PeerIdentity) : Prop :=
  ∃ m proof, .completed i m peer proof ∈ ds

/-- What holds between two steps, of the stages of all tasks and the state they share. -/
structure HandInv (h : κ → Stage ι F) (w : HandState ι κ F) : Prop where
  sound : SoundHistory net w.history
  inbox : ∀ t s, w.inbox t = .frame s → Genuine net w.history s
  stages : ∀ t, (h t).Holds net w.history
  drawn : ∀ t i m, (h t).run = some (i, m) → .drew i m ∈ w.history
  apart : ∀ t t' r, (h t).run = some r → (h t').run = some r → t = t'
  sessions : ∀ i peer session, (w.nodes i).sessions.lookup peer = some session →
    Handshaken w.history i ⟨peer, session.publicKey⟩

section Keeps

variable {net} {h : κ → Stage ι F} {w w' : HandState ι κ F} {l : Stage ι F}

omit [DecidableEq ι] in
theorem Stage.Holds.other {ds : List (Deed ι F)} {d : Deed ι F} (holds : l.Holds net ds)
    (other : ∀ r, l.run = some r → d.run ≠ some r) : l.Holds net (ds ++ [d]) := by
  have absent : ∀ {i m} {e : Deed ι F}, l.run = some (i, m) → e.run = some (i, m) → e ∉ ds →
      e ∉ ds ++ [d] := by
    intro i m e mine run fresh here
    rcases List.mem_append.mp here with before | last
    · exact fresh before
    · rw [List.mem_singleton.mp last] at run
      exact other _ mine run
  cases l with
  | idle => trivial
  | drawn i m =>
    exact ⟨fun s => absent rfl rfl (holds.1 s), fun s => absent rfl rfl (holds.2 s)⟩
  | hearing i m hello =>
    exact ⟨fun s => absent rfl rfl (holds.1 s), fun s => absent rfl rfl (holds.2.1 s),
      holds.2.2.later _⟩
  | greeted i m hello =>
    exact ⟨List.mem_append_left _ holds.1, fun s => absent rfl rfl (holds.2 s)⟩
  | proved i m hello => exact List.mem_append_left _ holds
  | answered i m hello proof => exact ⟨List.mem_append_left _ holds.1, holds.2.later _⟩
  | completed i m peer =>
    obtain ⟨proof, here⟩ := holds
    exact ⟨proof, List.mem_append_left _ here⟩

omit [Scalar F] [DecidableEq ι] in
theorem absent_snoc {ds : List (Deed ι F)} {d e : Deed ι F} (absent : e ∉ ds) (other : e ≠ d) :
    e ∉ ds ++ [d] := by
  intro here
  rcases List.mem_append.mp here with before | last
  · exact absent before
  · exact other (List.mem_singleton.mp last)

omit [DecidableEq ι] in
theorem Advance.keeps {d : Deed ι F} {l' : Stage ι F} (advance : Advance net l d l')
    {ds : List (Deed ι F)} (sound : SoundHistory net ds) (holds : l.Holds net ds)
    (drawn : ∀ i m, l.run = some (i, m) → .drew i m ∈ ds)
    (fresh : ∀ i m, d = .drew i m → ∀ e ∈ ds, ¬ e.Names m) :
    Justified net ds d ∧ l'.Holds net (ds ++ [d]) := by
  have last : d ∈ ds ++ [d] := List.mem_append_right _ List.mem_cons_self
  cases advance with
  | @draw l i m =>
    have unseen := fresh i m rfl
    have none : ∀ e : Deed ι F, e.run = some (i, m) → e ∉ ds := fun e run here =>
      unseen _ (sound.drawn_of_run here run) rfl
    exact ⟨unseen, fun s => absent_snoc (none _ rfl) (by intro same; cases same),
      fun s => absent_snoc (none _ rfl) (by intro same; cases same)⟩
  | hello made =>
    exact ⟨⟨drawn _ _ rfl, made⟩,
      fun s => absent_snoc (holds.1 s) (by intro same; cases same),
      fun s => absent_snoc (holds.2 s) (by intro same; cases same)⟩
  | @greet i m hello peer asked greeting =>
    exact ⟨⟨drawn _ _ rfl, holds.1, holds.2.2, peer, asked, greeting⟩, last,
      fun s => absent_snoc (holds.2.1 s) (by intro same; cases same)⟩
  | @prove i m hello frame peer asked greeting made =>
    exact ⟨⟨drawn _ _ rfl, holds.2, hello, peer, asked, holds.1, greeting, made⟩,
      List.mem_append_left _ holds.1⟩
  | @complete i m hello proof peer asked greeting verified echoes =>
    exact ⟨⟨drawn _ _ rfl, holds.2, verified, echoes, hello, asked, holds.1, greeting⟩,
      proof, last⟩

omit [DecidableEq ι] in
theorem Advance.run {d : Deed ι F} {l' : Stage ι F} (advance : Advance net l d l') :
    ∃ r, d.run = some r ∧ l'.run = some r ∧ (l.run = some r ∨ d = .drew r.1 r.2) := by
  cases advance with
  | @draw l i m => exact ⟨(i, m), rfl, rfl, Or.inr rfl⟩
  | hello made => exact ⟨_, rfl, rfl, Or.inl rfl⟩
  | greet greeting => exact ⟨_, rfl, rfl, Or.inl rfl⟩
  | prove greeting made => exact ⟨_, rfl, rfl, Or.inl rfl⟩
  | complete greeting verified echoes => exact ⟨_, rfl, rfl, Or.inl rfl⟩

variable [DecidableEq κ]

omit [DecidableEq ι] in
/-- A stage that belongs to the same run, and asks for nothing that does not hold. -/
theorem HandInv.stage (inv : HandInv net h w) (t : κ) {l' : Stage ι F}
    (run : l'.run = (h t).run ∨ l'.run = none) (holds : l'.Holds net w.history) :
    HandInv net (Function.update h t l') w := by
  have runs : ∀ u r, (Function.update h t l' u).run = some r → (h u).run = some r := by
    intro u r mine
    by_cases here : u = t
    · subst u
      rw [Function.update_self] at mine
      rcases run with same | none
      · rwa [← same]
      · rw [none] at mine
        cases mine
    · rwa [Function.update_of_ne here] at mine
  refine ⟨inv.sound, inv.inbox, fun u => ?_, fun u i m mine => inv.drawn u i m (runs u _ mine),
    fun u v r mine yours => inv.apart u v r (runs u r mine) (runs v r yours), inv.sessions⟩
  by_cases here : u = t
  · subst u
    rwa [Function.update_self]
  · rw [Function.update_of_ne here]
    exact inv.stages u

omit [DecidableEq ι] in
theorem HandInv.note (inv : HandInv net h w) (t : κ) {d : Deed ι F} {l' : Stage ι F}
    (advance : Advance net (h t) d l')
    (fresh : ∀ i m, d = .drew i m → ∀ e ∈ w.history, ¬ e.Names m) :
    HandInv net (Function.update h t l') { w with history := w.history ++ [d] } := by
  obtain ⟨justified, holds⟩ := advance.keeps inv.sound (inv.stages t) (inv.drawn t) fresh
  obtain ⟨r, deed, now, before⟩ := advance.run
  -- No other task is in the run of this deed.
  have others : ∀ u, u ≠ t → (h u).run ≠ some r := by
    intro u other same
    rcases before with mine | drew
    · exact other (inv.apart u t r same mine)
    · exact fresh _ _ drew _ (inv.drawn u r.1 r.2 same) rfl
  have sound := inv.sound.snoc justified
  refine ⟨sound, fun u s read => (inv.inbox u s read).later _, fun u => ?_, fun u i m mine => ?_,
    fun u v q mine yours => ?_, fun i peer session found => ?_⟩
  · by_cases here : u = t
    · subst u
      rwa [Function.update_self]
    · rw [Function.update_of_ne here]
      refine (inv.stages u).other fun q mine same => ?_
      rw [deed] at same
      exact others u here (mine.trans same.symm)
  · by_cases here : u = t
    · subst u
      rw [Function.update_self, now] at mine
      exact sound.drawn_of_run (List.mem_append_right _ List.mem_cons_self) (deed.trans mine)
    · rw [Function.update_of_ne here] at mine
      exact List.mem_append_left _ (inv.drawn u i m mine)
  · by_cases here : u = t
    · by_cases there : v = t
      · exact here.trans there.symm
      · subst u
        rw [Function.update_self, now] at mine
        rw [Function.update_of_ne there, ← mine] at yours
        exact absurd yours (others v there)
    · rw [Function.update_of_ne here] at mine
      by_cases there : v = t
      · subst v
        rw [Function.update_self, now] at yours
        rw [← yours] at mine
        exact absurd mine (others u here)
      · rw [Function.update_of_ne there] at yours
        exact inv.apart u v q mine yours
  · obtain ⟨m, proof, here⟩ := inv.sessions i peer session found
    exact ⟨m, proof, List.mem_append_left _ here⟩

omit [Scalar F] [DecidableEq ι] [DecidableEq κ] in
theorem SessionsKept.inv {P : ι → NodeId → Bytes → Prop} (kept : SessionsKept w w')
    (before : ∀ i peer session, (w.nodes i).sessions.lookup peer = some session →
      P i peer session.publicKey) :
    ∀ i peer session, (w'.nodes i).sessions.lookup peer = some session →
      P i peer session.publicKey := by
  intro i peer session' found
  obtain ⟨session, there, same⟩ := kept i peer session' found
  rw [same]
  exact before i peer session there

omit [DecidableEq ι] in
theorem HandInv.moves (inv : HandInv net h w) (t : κ) {l' : Stage ι F}
    (move : HandMove net (h t) w l' w') (clean : FreshDraws w w') :
    HandInv net (Function.update h t l') w' := by
  cases move with
  | quiet history inbox sessions =>
    rw [Function.update_eq_self]
    refine ⟨history ▸ inv.sound, ?_, ?_, ?_, inv.apart, ?_⟩
    · rw [history, inbox]
      exact inv.inbox
    · rw [history]
      exact inv.stages
    · rw [history]
      exact inv.drawn
    · rw [history]
      exact sessions.inv (P := fun i peer key => Handshaken _ i ⟨peer, key⟩) inv.sessions
  | @note l' d advance =>
    refine inv.note t advance fun i m drew => ?_
    subst drew
    exact clean i m rfl
  | hear read hears =>
    have genuine := inv.inbox _ _ read
    have holds := inv.stages t
    generalize stage : h t = l at hears holds
    cases hears with
    | hello =>
      exact inv.stage t (Or.inl (by rw [stage]; rfl)) ⟨holds.1, holds.2, genuine⟩
    | proof => exact inv.stage t (Or.inl (by rw [stage]; rfl)) ⟨holds, genuine⟩
  | @register w' i m peer stage history inbox sessions =>
    have holds := inv.stages t
    rw [stage] at holds
    have next := inv.stage t (.inr rfl) (show Stage.Holds net w.history .idle from trivial)
    refine ⟨history ▸ next.sound, ?_, ?_, ?_, next.apart, fun j q session' found => ?_⟩
    · rw [history, inbox]
      exact next.inbox
    · rw [history]
      exact next.stages
    · rw [history]
      exact next.drawn
    · rw [history]
      rcases sessions j q session' found with ⟨session, there, same⟩ | ⟨rfl, rfl, same⟩
      · rw [same]
        exact inv.sessions j q session there
      · rw [same]
        obtain ⟨proof, here⟩ := holds
        exact ⟨m, proof, here⟩

omit [DecidableEq ι] [DecidableEq κ] in
theorem HandInv.outside (inv : HandInv net h w) (change : HandOutside net w w') :
    HandInv net h w' := by
  obtain ⟨sessions, inbox, history⟩ := change
  rcases history with same | ⟨i, s, other, more⟩
  · refine ⟨same ▸ inv.sound, inbox, ?_, ?_, inv.apart, ?_⟩
    · rw [same]
      exact inv.stages
    · rw [same]
      exact inv.drawn
    · rw [same]
      exact sessions.inv (P := fun i peer key => Handshaken _ i ⟨peer, key⟩) inv.sessions
  · refine ⟨?_, inbox, fun t => ?_, fun t j m mine => ?_, inv.apart, ?_⟩
    · rw [more]
      exact inv.sound.snoc other
    · rw [more]
      exact (inv.stages t).other fun r mine same => by cases same
    · rw [more]
      exact List.mem_append_left _ (inv.drawn t j m mine)
    · refine sessions.inv (P := fun i peer key => Handshaken w'.history i ⟨peer, key⟩) ?_
      intro j peer session found
      obtain ⟨m, proof, here⟩ := inv.sessions j peer session found
      exact ⟨m, proof, more ▸ List.mem_append_left _ here⟩

end Keeps

section Result

variable {net home} [DecidableEq κ] {c : Crypto F}

theorem handshakes_inductive : Pool.Inductive (net.Sessions home) (HandOutside net)
    (FreshDraws (κ := κ)) (HandMove net) (fun _ => True) (HandInv net) where
  obeys t p offered l _ := by
    rw [show p = net.openSession home t from offered]
    exact openSession_obeys t
  moves h t l w w' inv move clean := inv.moves t move clean
  changes h w w' inv change _ := inv.outside change

/-- What is true of every session and every completed handshake. -/
structure Authenticated (net : Network ι F) (w : HandState ι κ F) : Prop where
  /-- A session is registered under an identity only after a handshake with its key. -/
  sessions : ∀ b peer session, (w.nodes b).sessions.lookup peer = some session →
    Handshaken w.history b ⟨peer, session.publicKey⟩
  /-- Nobody completes a handshake with itself, or under an identity that is not of its key. -/
  other : ∀ b peer, Handshaken w.history b peer → peer.nodeId ≠ (net b).identity.nodeId ∧
    (net b).crypto.nodeIdFromPublicKey peer.publicKey = peer.nodeId
  /-- Behind a handshake with an honest peer there is a run of that peer. -/
  backed : ∀ b n peer proof a, .completed b n peer proof ∈ w.history →
    peer.nodeId = (net a).identity.nodeId →
      ∃ m hello answer, Backed net w.history b n peer proof a m hello answer
  /-- No two handshakes rest on one run. -/
  apart : ∀ b b' n n' peer peer' proof proof' a m hello hello' answer answer',
    Backed net w.history b n peer proof a m hello answer →
      Backed net w.history b' n' peer' proof' a m hello' answer' → b = b' ∧ n = n'

/-- However handshakes are interleaved and whatever the network does, a completed handshake with
an honest peer was answered by that peer, after it was asked, in a run of its own. -/
theorem handshakes_authenticate (trusted : Trusted net c)
    {P₀ P : Pool κ (HandState ι κ F) SessionError Unit} (unopened : Unopened P₀)
    (run : net.HandRun home P₀ P) : Authenticated net P.state := by
  have start : HandInv net (fun _ => Stage.idle) P₀.state := by
    refine ⟨unopened.history ▸ SoundHistory.nil, fun t s read => absurd read (unopened.inbox t s),
      fun t => trivial, fun t i m mine => (by cases mine), fun t t' r mine => (by cases mine), ?_⟩
    intro i peer session found
    rw [unopened.sessions i] at found
    cases found
  obtain ⟨h, inv, -⟩ := Pool.Run.invariant handshakes_inductive start unopened.idle
    (fun _ => trivial) run
  refine ⟨inv.sessions, fun b peer met => ?_,
    fun b n peer proof a here honest => inv.sound.backed trusted here honest,
    fun b b' n n' peer peer' proof proof' a m hello hello' answer answer' backed backed' =>
      inv.sound.backs_once backed backed'⟩
  obtain ⟨n, proof, here⟩ := met
  obtain ⟨older, newer, -, -, -, -, -, hello, asked, -, greeting⟩ := inv.sound.justified here
  exact ⟨greeting.other, greeting.derived⟩

end Result

end Runs

section Relayed

theorem Value.eq_ofBytes {v : Value} {bytes : Bytes} (read : v.toBytes? = some bytes) :
    v = .ofBytes bytes := by
  have byte : ∀ {x : Value} {b : UInt8}, x.toByte? = some b → x = .number b.toNat := by
    intro x b is
    cases x with
    | number n =>
      simp only [Value.toByte?] at is
      split at is
      · rename_i range
        obtain rfl := Option.some.inj is
        have small : n.toNat < 256 := by omega
        have back : (UInt8.ofNat n.toNat).toNat = n.toNat := by
          rw [UInt8.toNat_ofNat']
          exact Nat.mod_eq_of_lt small
        rw [back, Int.toNat_of_nonneg range.1]
      · cases is
    | null | bool | float | string | array | object => cases is
  cases v with
  | array xs =>
    rw [Value.ofBytes]
    refine congrArg Value.array ?_
    simp only [Value.toBytes?] at read
    induction xs generalizing bytes with
    | nil =>
      obtain rfl := Option.some.inj read
      rfl
    | cons x xs ih =>
      simp only [List.mapM_cons, Option.bind_eq_bind, Option.bind_eq_some_iff] at read
      obtain ⟨b, first, bs, rest, whole⟩ := read
      obtain rfl := Option.some.inj whole
      rw [List.map_cons, ← byte first, ← ih rest]
  | null | bool | float | string | number | object => cases read

def bodyOf : Value → Option (List Bytes)
  | .object [(a, challenge), (b, .string name), (c, key)] =>
    if a = "challenge" ∧ b = "module" ∧ name = classicalModuleId ∧ c = "public_key" then do
      let challenge ← challenge.toBytes?
      let key ← key.toBytes?
      return [challenge, key]
    else none
  | .object [(a, echo)] => if a = "proof_for" then do return [← echo.toBytes?] else none
  | _ => none

def payloadOf : List Bytes → Value
  | [challenge, key] => helloPayload key challenge
  | [echo] => proofPayload echo
  | _ => .null

theorem payloadOf_bodyOf {v : Value} {bs : List Bytes} (read : bodyOf v = some bs) :
    v = payloadOf bs := by
  unfold bodyOf at read
  split at read
  · split at read
    · rename_i names
      obtain ⟨rfl, rfl, rfl, rfl⟩ := names
      simp only [Option.bind_eq_bind, Option.bind_eq_some_iff] at read
      obtain ⟨challenge, first, key, second, whole⟩ := read
      obtain rfl := Option.some.inj whole
      rw [Value.eq_ofBytes first, Value.eq_ofBytes second]
      rfl
    · cases read
  · split at read
    · rename_i name
      subst name
      simp only [Option.bind_eq_bind, Option.bind_eq_some_iff] at read
      obtain ⟨echo, first, whole⟩ := read
      obtain rfl := Option.some.inj whole
      rw [Value.eq_ofBytes first]
      rfl
    · cases read
  · cases read

def relayId : SignalId := .generate 0 (2 ^ 64 - 1) (2 ^ 64 - 1)

/-- A Discovery with nothing but an origin and a payload of its own. -/
def discoveryOf (origin : Bytes) (payload : Value) : Signal ℚ :=
  { bare relayId with
    signalType := .discovery, origin := ⟨origin⟩, payload := payload, scope := .weighted 0,
    tags := ["discovery"] }

def outline (s : Signal ℚ) : Option (List Bytes) :=
  if s.id = relayId ∧ s.signalType = .discovery ∧ s.version = 1 ∧ s.signature = [] ∧
      s.timestamp = 0 ∧ s.encoding = .cbor ∧ s.weight = 0 ∧ s.ttl = 0 ∧ s.scope = .weighted 0 ∧
      s.correlationId = none ∧ s.trace = [] ∧ s.tags = ["discovery"] ∧ s.delivery = .bestEffort then
    (bodyOf s.payload).map (s.origin.bytes :: ·)
  else none

theorem outline_injective {s t : Signal ℚ} {bs : List Bytes} (first : outline s = some bs)
    (second : outline t = some bs) : s = t := by
  have shape : ∀ {s : Signal ℚ}, outline s = some bs →
      s = discoveryOf (bs.headD []) (payloadOf bs.tail) := by
    intro s known
    unfold outline at known
    split at known
    · rename_i fields
      obtain ⟨body, read, rfl⟩ := Option.map_eq_some_iff.mp known
      rcases s with ⟨id, signalType, version, ⟨origin⟩, signature, timestamp, payload, encoding,
        weight, ttl, scope, correlationId, trace, tags, delivery⟩
      obtain ⟨rfl, rfl, rfl, rfl, rfl, rfl, rfl, rfl, rfl, rfl, rfl, rfl, rfl⟩ := fields
      dsimp only at read
      rw [payloadOf_bodyOf read]
      rfl
    · cases known
  rw [shape first, shape second]

def delimit (bytes : Bytes) : Bytes := bytes.flatMap (fun b => [1, b]) ++ [0]

theorem delimit_cons (b : UInt8) (bytes : Bytes) : delimit (b :: bytes) = 1 :: b :: delimit bytes :=
  rfl

theorem delimit_append {a b x y : Bytes} (same : delimit a ++ x = delimit b ++ y) :
    a = b ∧ x = y := by
  induction a generalizing b with
  | nil =>
    cases b with
    | nil => exact ⟨rfl, (List.cons.inj same).2⟩
    | cons c b => exact absurd (List.cons.inj same).1 (by decide)
  | cons c a ih =>
    cases b with
    | nil => exact absurd (List.cons.inj same).1 (by decide)
    | cons d b =>
      simp only [delimit_cons, List.cons_append, List.cons.injEq, true_and] at same
      obtain ⟨rfl, rest⟩ := same
      obtain ⟨rfl, rfl⟩ := ih rest
      exact ⟨rfl, rfl⟩

theorem delimit_injective {as bs : List Bytes}
    (same : as.flatMap delimit = bs.flatMap delimit) : as = bs := by
  induction as generalizing bs with
  | nil =>
    cases bs with
    | nil => rfl
    | cons b bs => cases b <;> cases same
  | cons a as ih =>
    cases bs with
    | nil => cases a <;> cases same
    | cons b bs =>
      simp only [List.flatMap_cons] at same
      obtain ⟨rfl, rest⟩ := delimit_append same
      rw [ih rest]

def discoveryCrypto : Crypto ℚ :=
  { plainCrypto with
    toVec := fun s =>
      match outline s with
      | some bs => .ok (bs.flatMap delimit)
      | none => .error "not a handshake frame" }

theorem discoveryCrypto_injective (x y : Signal ℚ) (bytes : Bytes)
    (first : discoveryCrypto.toVec x = .ok bytes) (second : discoveryCrypto.toVec y = .ok bytes) :
    x = y := by
  simp only [discoveryCrypto] at first second
  split at first
  · rename_i bs outlined
    split at second
    · rename_i bs' outlined'
      obtain rfl := delimit_injective ((Except.ok.inj first).trans (Except.ok.inj second).symm)
      exact outline_injective outlined outlined'
    · cases second
  · cases first

def relayKey (i : Bool) : Bytes := if i then [1] else [0]

def relayNet : Network Bool ℚ := fun i =>
  ⟨⟨⟨relayKey i⟩, .forClass .edge⟩, ⟨relayKey i, relayKey i, ⟨relayKey i⟩⟩, discoveryCrypto, rfl⟩

theorem relayNet_trusted : Trusted relayNet discoveryCrypto where
  shared _ := rfl
  injective := discoveryCrypto_injective
  derived _ := rfl
  collisionFree _ _ same := NodeId.mk.inj same
  distinct := by decide

def relayStart : Pool Bool (HandState Bool Bool ℚ) SessionError Unit where
  task _ := .pure ()
  state := {
    nodes := fun i => ⟨(relayNet i).node.build .new .maximal 0 [], ∅, ∅, [], [], []⟩
    inbox := fun _ => .timedOut
    writeFault := fun _ => none
    entropy := List.replicate 32 1
    history := [] }

def drawsFresh (w w' : HandState Bool Bool ℚ) : Bool :=
  match w'.history.drop w.history.length with
  | [.drew _ challenge] => w.history.all fun d => ¬ d.Names challenge
  | _ => true

theorem drawsFresh_sound (w w' : HandState Bool Bool ℚ) (checked : drawsFresh w w' = true) :
    FreshDraws w w' := by
  intro i challenge drew d hd
  rw [drawsFresh, drew, List.drop_left] at checked
  simpa using List.all_eq_true.mp checked d hd

def lastFrame (w : HandState Bool Bool ℚ) (i : Bool) : Option (Signal ℚ) :=
  (w.history.filterMap fun d =>
    match d with
    | .helloed j _ s => if j = i then some s else none
    | .proved j _ s => if j = i then some s else none
    | _ => none).getLast?

/-- What a third party, with a key of its own, makes of a challenge. -/
def strangerHello (challenge : Bytes) : Signal ℚ :=
  ((discoveryCrypto.signSignal (discoveryOf [9] (helloPayload [9] challenge)) [9]).toOption).getD
    (bare relayId)

/-- The third party hands its own hello to node `false` and the frames of that node to `true`. -/
def relayed (w : HandState Bool Bool ℚ) (entropy : Bytes) : HandState Bool Bool ℚ :=
  { w with
    entropy := entropy
    inbox := fun t =>
      if t then (lastFrame w false).elim .timedOut .frame
      else .frame (strangerHello (List.replicate 32 1)) }

theorem genuine_of_head {history : List (Deed Bool ℚ)} {s : Signal ℚ}
    (signed : ∀ i, s.signature.head? = (relayKey i).head? → ∃ d ∈ history, d.Signs i s) :
    Genuine relayNet history s := by
  intro i bytes encoded verified
  have shape : s.signature = relayKey i ++ bytes := by
    have held : decide (s.signature = relayKey i ++ bytes) = true := Except.ok.inj verified
    simpa using held
  have head : s.signature.head? = (relayKey i).head? := by
    rw [shape]
    cases i <;> rfl
  obtain ⟨d, hd, signs⟩ := signed i head
  exact ⟨d, hd, s, signs, encoded⟩

theorem freshDraws_of_same {w w' : HandState Bool Bool ℚ} (same : w'.history = w.history) :
    FreshDraws w w' := by
  intro i challenge drew
  rw [same] at drew
  exact absurd (congrArg List.length drew) (by simp)

theorem lastFrame_signed {w : HandState Bool Bool ℚ} {i : Bool} {s : Signal ℚ}
    (last : lastFrame w i = some s) : ∃ d ∈ w.history, d.Signs i s := by
  have here := List.mem_of_getLast? last
  obtain ⟨d, hd, framed⟩ := List.mem_filterMap.mp here
  refine ⟨d, hd, ?_⟩
  cases d with
  | helloed j m frame =>
    dsimp only at framed
    split at framed
    · exact ⟨‹_›, Option.some.inj framed⟩
    · cases framed
  | proved j m frame =>
    dsimp only at framed
    split at framed
    · exact ⟨‹_›, Option.some.inj framed⟩
    · cases framed
  | drew | greeted | completed | emitted => cases framed

abbrev RelayPool := Pool Bool (HandState Bool Bool ℚ) SessionError Unit

abbrev RelayRun : RelayPool → Prop := relayNet.HandRun (fun t : Bool => t) relayStart

def passOn (P : RelayPool) (entropy : Bytes) : RelayPool := ⟨P.task, relayed P.state entropy⟩

theorem RelayRun.passOn {P : RelayPool} (run : RelayRun P) (entropy : Bytes)
    (signed : (lastFrame P.state false).all fun s => s.signature.head? = some 0) :
    RelayRun (passOn P entropy) := by
  refine run.step (.outside ⟨fun _ _ session' found => ⟨session', found, rfl⟩, ?_, Or.inl rfl⟩)
    (freshDraws_of_same rfl)
  intro t s read
  cases t with
  | false =>
    obtain rfl := Inbound.frame.inj read
    refine genuine_of_head fun i head => ?_
    cases i with
    | false => exact absurd head (by decide +kernel)
    | true => exact absurd head (by decide +kernel)
  | true =>
    cases last : lastFrame P.state false with
    | none =>
      simp only [relayed, last] at read
      cases read
    | some frame =>
      simp only [relayed, last] at read
      obtain rfl := Inbound.frame.inj read
      rw [last] at signed
      refine genuine_of_head fun i head => ?_
      have zero : frame.signature.head? = some 0 := by simpa using signed
      cases i with
      | false => exact lastFrame_signed last
      | true => exact absurd (zero.symm.trans head) (by decide)

def take (P : RelayPool) (schedule : List Bool) : RelayPool :=
  (P.follow drawsFresh schedule).getD P

theorem RelayRun.take {P : RelayPool} (run : RelayRun P) {schedule : List Bool}
    (can : (P.follow drawsFresh schedule).isSome = true) : RelayRun (take P schedule) := by
  obtain ⟨P', followed⟩ := Option.isSome_iff_exists.mp can
  have there : OpenNtl.take P schedule = P' := by
    rw [OpenNtl.take, followed]
    rfl
  rw [there]
  exact run.follow drawsFresh_sound followed

def opened : RelayPool :=
  (relayStart.begin true (relayNet.openSession (fun t => t) true)).begin false
    (relayNet.openSession (fun t => t) false)

def asked : RelayPool := passOn (take opened (List.replicate 4 true)) (List.replicate 32 2)

def introduced : RelayPool := passOn (take asked (List.replicate 4 false)) []

def answered : RelayPool :=
  passOn (take introduced (List.replicate 5 true ++ List.replicate 5 false)) []

def deceived : RelayPool := take answered (List.replicate 4 true)

def heardFrom (i : Bool) (origin : NodeId) : Deed Bool ℚ → Bool
  | .greeted j _ hello => j = i ∧ hello.origin = origin
  | _ => false

theorem deceived_authenticates :
    RelayRun deceived ∧ Authenticated relayNet deceived.state ∧
      ((deceived.state.nodes true).sessions.lookup ⟨[0]⟩).isSome = true ∧
      deceived.state.history.any (heardFrom false ⟨[9]⟩) = true ∧
      deceived.state.history.any (heardFrom false ⟨[1]⟩) = false := by
  have unopened : Unopened relayStart :=
    ⟨fun t => trivial, rfl, fun t s read => (by cases read), fun i => rfl⟩
  have first : RelayRun (relayStart.begin true (relayNet.openSession (fun t => t) true)) :=
    Pool.Run.refl.step (.start (Prog.isFinished_eq_true rfl) rfl) (freshDraws_of_same rfl)
  have begun : RelayRun opened :=
    first.step (.start (Prog.isFinished_eq_true rfl) rfl) (freshDraws_of_same rfl)
  have second : RelayRun asked := (begun.take (by decide +kernel)).passOn _ (by decide +kernel)
  have third : RelayRun introduced := (second.take (by decide +kernel)).passOn _ (by decide +kernel)
  have fourth : RelayRun answered := (third.take (by decide +kernel)).passOn _ (by decide +kernel)
  have run : RelayRun deceived := fourth.take (by decide +kernel)
  exact ⟨run, handshakes_authenticate relayNet_trusted unopened run, by decide +kernel,
    by decide +kernel, by decide +kernel⟩

end Relayed
end OpenNtl
