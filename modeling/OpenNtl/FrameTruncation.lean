import OpenNtl.FrameStream

/-! # A stream that ends inside a frame

The header and the body of a frame are two reads, and both end early in the same way. A body that
is cut short is an error. A header that is cut short is taken for the end of the stream.
-/
namespace OpenNtl

open PolledStream

variable {F : Type} {c : Cbor F}

def wire (bodies : List Bytes) : Bytes := bodies.flatMap frame

def framesWithin : List Bytes → ℕ → ℕ
  | [], _ => 0
  | body :: rest, n =>
    if (frame body).length ≤ n then framesWithin rest (n - (frame body).length) + 1 else 0

/-- How far the first `n` bytes reach into a frame that they do not hold. -/
def bytesInto : List Bytes → ℕ → ℕ
  | [], n => n
  | body :: rest, n =>
    if (frame body).length ≤ n then bytesInto rest (n - (frame body).length) else n

def EndsOnBoundary (bodies : List Bytes) (cut : Bytes) : Prop :=
  ∃ k, cut = wire (bodies.take k)

def EndsInHeader (bodies : List Bytes) (cut : Bytes) : Prop :=
  0 < bytesInto bodies cut.length ∧ bytesInto bodies cut.length < 4

instance EndsInHeader.decidable (bodies : List Bytes) (cut : Bytes) :
    Decidable (EndsInHeader bodies cut) :=
  inferInstanceAs (Decidable (_ ∧ _))

@[simp] theorem frame_length (body : Bytes) : (frame body).length = 4 + body.length := by
  simp [frame]

theorem wire_cons (body : Bytes) (rest : List Bytes) :
    wire (body :: rest) = frame body ++ wire rest := by
  simp [wire]

theorem prefix_wire_cons {cut body : Bytes} {rest : List Bytes}
    (cutOff : cut <+: wire (body :: rest)) :
    (cut.length < (frame body).length ∧ cut <+: frame body) ∨
      ∃ after, cut = frame body ++ after ∧ after <+: wire rest := by
  rw [wire_cons] at cutOff
  obtain ⟨missing, whole⟩ := cutOff
  rcases List.append_eq_append_iff.mp whole with ⟨more, split, _⟩ | ⟨after, split, onward⟩
  · by_cases done : more = []
    · right
      subst done
      exact ⟨[], by simpa using split.symm, List.nil_prefix⟩
    · left
      have some := List.length_pos_iff.mpr done
      refine ⟨?_, more, split.symm⟩
      rw [split, List.length_append]
      omega
  · exact .inr ⟨after, split, missing, onward.symm⟩

theorem bytesInto_eq_zero {bodies : List Bytes} {cut : Bytes} (cutOff : cut <+: wire bodies) :
    bytesInto bodies cut.length = 0 ↔ EndsOnBoundary bodies cut := by
  induction bodies generalizing cut with
  | nil =>
    have none : cut = [] := List.prefix_nil.mp cutOff
    subst none
    exact ⟨fun _ => ⟨0, rfl⟩, fun _ => rfl⟩
  | cons body rest ih =>
    rcases prefix_wire_cons cutOff with ⟨short, _⟩ | ⟨after, rfl, onward⟩
    · rw [bytesInto, if_neg (not_le.mpr short)]
      constructor
      · intro none
        exact ⟨0, List.eq_nil_of_length_eq_zero none⟩
      · rintro ⟨k, rfl⟩
        cases k with
        | zero => rfl
        | succ k =>
          rw [List.take_succ_cons, wire_cons, List.length_append] at short
          omega
    · have held : (frame body).length ≤ (frame body ++ after).length := by simp
      have left : (frame body ++ after).length - (frame body).length = after.length := by simp
      rw [bytesInto, if_pos held, left, ih onward]
      constructor
      · rintro ⟨k, rfl⟩
        exact ⟨k + 1, by rw [List.take_succ_cons, wire_cons]⟩
      · rintro ⟨k, eq⟩
        cases k with
        | zero => simp [wire, frame, toBeBytes] at eq
        | succ k =>
          rw [List.take_succ_cons, wire_cons, List.append_cancel_left_eq] at eq
          exact ⟨k, eq⟩

def readWithin (n : ℕ) : FrameError := if n < 4 then .closed else .io .unexpectedEof

theorem readSignal_short {s : Signal F} {body : Bytes} (encoded : s.encode c = .ok body)
    {reader : Source UInt8 IoError} (flows : reader.Flows) (starts : reader.content <+: frame body)
    (short : reader.content.length < (frame body).length) :
    readSignal c reader = (.error (readWithin reader.content.length), []) := by
  have small := (Signal.encode_eq_ok.mp encoded).2
  by_cases early : reader.content.length < 4
  · have header := flows.readExact_short IoError.unexpectedEof early
    simp only [readSignal, header, readWithin, early, if_true]
  · obtain ⟨part, split⟩ : ∃ part, reader.content = toBeBytes 4 body.length ++ part := by
      obtain ⟨missing, whole⟩ := starts
      rcases List.append_eq_append_iff.mp whole with ⟨more, split, _⟩ | ⟨part, split, _⟩
      · refine ⟨[], ?_⟩
        have none : more = [] := by
          have length := congrArg List.length split
          rw [List.length_append, toBeBytes_length] at length
          apply List.eq_nil_of_length_eq_zero
          omega
        subst none
        simpa using split.symm
      · exact ⟨part, split⟩
    have claimed : fromBeBytes (toBeBytes 4 body.length) = body.length := by
      apply fromBeBytes_toBeBytes
      unfold Signal.maxSize at small
      omega
    have left : part.length < body.length := by
      rw [split, List.length_append, toBeBytes_length, frame_length] at short
      omega
    have some : body.length ≠ 0 := by omega
    obtain ⟨rest, header, flows', starts'⟩ := flows.readExact_eq .unexpectedEof split
    rw [toBeBytes_length] at header
    rw [← starts'] at left
    have cut := flows'.readExact_short IoError.unexpectedEof left
    simp only [readSignal, header, claimed, gt_iff_lt, not_lt.mpr small, if_false, some, cut,
      readWithin, early]

/-- The frames that are there are read, then the error of the one that is not, and then the stream
is closed. -/
theorem readSignals_cut (lawful : c.Lawful) {signals : List (Signal F)} {bodies : List Bytes}
    (encoded : List.Forall₂ (fun s body => s.encode c = .ok body) signals bodies)
    {reader : Source UInt8 IoError} (flows : reader.Flows) (cut : reader.content <+: wire bodies)
    (k : ℕ) :
    readSignals c (framesWithin bodies reader.content.length + (k + 1)) reader =
      ((signals.take (framesWithin bodies reader.content.length)).map .ok ++
        .error (readWithin (bytesInto bodies reader.content.length)) ::
          List.replicate k (.error .closed), []) := by
  induction encoded generalizing reader with
  | nil =>
    have ended := flows.ended (List.prefix_nil.mp cut)
    subst ended
    simp [framesWithin, bytesInto, Source.content, readSignals, readSignal_nil, readSignals_nil,
      readWithin]
  | @cons s body signals bodies first _ ih =>
    rcases prefix_wire_cons cut with ⟨short, starts⟩ | ⟨after, split, onward⟩
    · have error := readSignal_short first flows starts short
      have held : ¬ (frame body).length ≤ reader.content.length := not_le.mpr short
      rw [framesWithin, bytesInto, if_neg held, if_neg held]
      simp [readSignals, error, readSignals_nil]
    · obtain ⟨rest, read, flows', starts'⟩ := readSignal_frame lawful first flows split
      rw [← starts'] at onward
      have held : (frame body).length ≤ reader.content.length := by simp [split]
      have left : reader.content.length - (frame body).length = rest.content.length := by
        simp [split, starts']
      rw [framesWithin, bytesInto, if_pos held, if_pos held, left, Nat.add_right_comm, readSignals,
        read, ih flows' onward]
      rfl

/-- A stream that ends after a frame is closed, and one that ends inside a frame gives an error. -/
structure ReportsTruncation (c : Cbor F) (signals : List (Signal F)) (bodies : List Bytes)
    (cut : Bytes) : Prop where
  closes : ∀ reader : Source UInt8 IoError, reader.Flows → reader.content = cut → ∀ k,
    (readSignals c (framesWithin bodies cut.length + (k + 1)) reader).1 =
        (signals.take (framesWithin bodies cut.length)).map .ok ++
          List.replicate (k + 1) (.error .closed) ↔
      EndsOnBoundary bodies cut
  reports : ¬ EndsOnBoundary bodies cut → ∀ reader : Source UInt8 IoError, reader.Flows →
    reader.content = cut → ∃ e,
      (readSignals c (framesWithin bodies cut.length + 1) reader).1 =
          (signals.take (framesWithin bodies cut.length)).map .ok ++ [.error e] ∧
        ((∃ io, e = .io io) ∨ ∃ message, e = .malformed message)

theorem exists_flowing (content : Bytes) :
    ∃ reader : Source UInt8 IoError, reader.Flows ∧ reader.content = content := by
  by_cases none : content = []
  · exact ⟨[], by simp [Source.Flows], by simp [Source.content, none]⟩
  · refine ⟨[.chunk content], ?_, by simp [Source.content]⟩
    intro p mem
    exact ⟨content, none, List.mem_singleton.mp mem⟩

/-- Only an end inside a header is not told from a clean one. -/
theorem truncation_reported_iff (c : Cbor F) (lawful : c.Lawful) (signals : List (Signal F))
    (bodies : List Bytes) (encoded : List.Forall₂ (fun s body => s.encode c = .ok body) signals
      bodies) (cut : Bytes) (cutOff : cut <+: wire bodies) :
    ReportsTruncation c signals bodies cut ↔ ¬ EndsInHeader bodies cut := by
  have boundary := bytesInto_eq_zero cutOff
  constructor
  · rintro ⟨_, reports⟩ ⟨inside, early⟩
    obtain ⟨reader, flows, starts⟩ := exists_flowing cut
    have unclean : ¬ EndsOnBoundary bodies cut := by
      rw [← boundary]
      omega
    obtain ⟨e, read, kind⟩ := reports unclean reader flows starts
    rw [← starts] at cutOff
    have reads := readSignals_cut lawful encoded flows cutOff 0
    rw [starts] at reads
    rw [reads] at read
    have same := List.append_cancel_left read
    rw [readWithin, if_pos early] at same
    simp only [List.replicate_zero, List.cons.injEq, Except.error.injEq, and_true] at same
    subst same
    rcases kind with ⟨io, eq⟩ | ⟨message, eq⟩
    · cases eq
    · cases eq
  · intro outside
    have late : bytesInto bodies cut.length = 0 ∨ 4 ≤ bytesInto bodies cut.length := by
      unfold EndsInHeader at outside
      omega
    constructor
    · rintro reader flows rfl k
      rw [readSignals_cut lawful encoded flows cutOff k, ← boundary]
      constructor
      · intro closed
        by_contra inside
        have same := List.append_cancel_left closed
        rw [List.replicate_succ, List.cons.injEq, readWithin, if_neg (by omega)] at same
        cases same.1
      · intro none
        rw [none]
        rfl
    · rintro unclean reader flows rfl
      rw [← boundary] at unclean
      refine ⟨.io .unexpectedEof, ?_, .inl ⟨_, rfl⟩⟩
      rw [readSignals_cut lawful encoded flows cutOff 0, readWithin, if_neg (by omega)]
      rfl

theorem cut_body_reported :
    ReportsTruncation bareCbor [bare ⟨7⟩] [toBeBytes 16 7] [0, 0, 0, 16, 0] ∧
      ¬ EndsOnBoundary [toBeBytes 16 7] [0, 0, 0, 16, 0] := by
  have cutOff : [0, 0, 0, 16, 0] <+: wire [toBeBytes 16 7] := by decide
  refine ⟨(truncation_reported_iff bareCbor bareCbor_lawful [bare ⟨7⟩] [toBeBytes 16 7]
    (.cons (by rfl) .nil) [0, 0, 0, 16, 0] cutOff).mpr (by decide), ?_⟩
  rw [← bytesInto_eq_zero cutOff]
  decide

/-- One byte of a header, and the reader calls it the end. -/
theorem cut_header_closed :
    (bare ⟨7⟩).encode bareCbor = .ok (toBeBytes 16 7) ∧ [0] <+: wire [toBeBytes 16 7] ∧
      [0] ≠ wire [toBeBytes 16 7] ∧ ¬ EndsOnBoundary [toBeBytes 16 7] [0] ∧
      (readSignals bareCbor 1 [.chunk [0]]).1 = [.error .closed] ∧
      ¬ ReportsTruncation bareCbor [bare ⟨7⟩] [toBeBytes 16 7] [0] := by
  have cutOff : [0] <+: wire [toBeBytes 16 7] := by decide
  have unclean : ¬ EndsOnBoundary [toBeBytes 16 7] [0] := by
    rw [← bytesInto_eq_zero cutOff]
    decide
  have closed : (readSignals bareCbor 1 [.chunk [0]]).1 = [.error .closed] := by
    simp [readSignals, readSignal, Source.readExact, Except.map]
  refine ⟨by rfl, cutOff, by decide, unclean, closed, ?_⟩
  rintro ⟨closes, _⟩
  exact unclean ((closes [.chunk [0]] (by simp [Source.Flows]) (by simp [Source.content])
    0).mp closed)

end OpenNtl
