import OpenNtl.PolledStream
import OpenNtl.Node

/-! # Frames on a byte stream

A signal on the wire is a 4-byte big-endian length and that many bytes of CBOR.
-/
namespace OpenNtl

open PolledStream

def toBeBytes : ℕ → ℕ → Bytes
  | 0, _ => []
  | k + 1, n => toBeBytes k (n / 256) ++ [UInt8.ofNat (n % 256)]

def fromBeBytes (bytes : Bytes) : ℕ := bytes.foldl (fun n b => n * 256 + b.toNat) 0

@[simp] theorem toBeBytes_length (k n : ℕ) : (toBeBytes k n).length = k := by
  induction k generalizing n with
  | zero => rfl
  | succ k ih => simp [toBeBytes, ih]

theorem fromBeBytes_toBeBytes {k n : ℕ} (small : n < 256 ^ k) :
    fromBeBytes (toBeBytes k n) = n := by
  induction k generalizing n with
  | zero =>
    rw [pow_zero] at small
    simp only [toBeBytes, fromBeBytes, List.foldl_nil]
    omega
  | succ k ih =>
    have high : n / 256 < 256 ^ k := by
      apply Nat.div_lt_of_lt_mul
      rwa [pow_succ, mul_comm] at small
    have byte : (UInt8.ofNat (n % 256)).toNat = n % 256 := by simp
    have upper := ih high
    unfold fromBeBytes at upper ⊢
    rw [toBeBytes, List.foldl_append, upper, List.foldl_cons, List.foldl_nil, byte]
    omega

/-- `serde_cbor` on signals, with its errors as they display. -/
structure Cbor (F : Type) where
  toVec : Signal F → Except String Bytes
  fromSlice : Bytes → Except String (Signal F)

variable {F : Type}

/-- Decoding undoes encoding, and no signal is read from an empty slice. -/
structure Cbor.Lawful (c : Cbor F) : Prop where
  undoes : ∀ s bytes, c.toVec s = .ok bytes → c.fromSlice bytes = .ok s
  empty : ∀ s, c.fromSlice [] ≠ .ok s

theorem Cbor.Lawful.injective {c : Cbor F} (lawful : c.Lawful) {s t : Signal F} {bytes : Bytes}
    (encoded : c.toVec s = .ok bytes) (encoded' : c.toVec t = .ok bytes) : s = t := by
  have decoded := lawful.undoes s bytes encoded
  rw [lawful.undoes t bytes encoded'] at decoded
  exact (Except.ok.inj decoded).symm

def NodeError.message : NodeError → String
  | .invalidSignal text => "invalid signal: " ++ text
  | .serialization text => "serialization error: " ++ text

def Signal.maxSize : ℕ := 1048576

def Signal.encode (c : Cbor F) (s : Signal F) : Except NodeError Bytes :=
  match c.toVec s with
  | .error e => .error (.serialization e)
  | .ok bytes =>
    if bytes.length > Signal.maxSize then
      .error (.invalidSignal ("encoded signal is " ++ toString bytes.length ++
        " bytes, exceeding the " ++ toString Signal.maxSize ++ " byte maximum"))
    else .ok bytes

def Signal.decode (c : Cbor F) (bytes : Bytes) : Except NodeError (Signal F) :=
  if bytes.length > Signal.maxSize then
    .error (.invalidSignal ("signal is " ++ toString bytes.length ++
      " bytes, exceeding the " ++ toString Signal.maxSize ++ " byte maximum"))
  else (c.fromSlice bytes).mapError .serialization

variable {c : Cbor F}

theorem Signal.encode_eq_ok {s : Signal F} {body : Bytes} :
    s.encode c = .ok body ↔ c.toVec s = .ok body ∧ body.length ≤ maxSize := by
  unfold encode
  cases c.toVec s with
  | error e => simp
  | ok bytes =>
    by_cases large : bytes.length > maxSize
    · simp only [large, if_true, reduceCtorEq, Except.ok.injEq, false_iff, not_and, not_le]
      rintro rfl
      exact large
    · simp only [large, if_false, Except.ok.injEq]
      constructor
      · rintro rfl
        exact ⟨rfl, not_lt.mp large⟩
      · exact fun h => h.1

theorem Signal.decode_encode (lawful : c.Lawful) {s : Signal F} {body : Bytes}
    (encoded : s.encode c = .ok body) : Signal.decode c body = .ok s ∧ body ≠ [] := by
  obtain ⟨bytes, small⟩ := Signal.encode_eq_ok.mp encoded
  have decoded := lawful.undoes s body bytes
  constructor
  · simp [Signal.decode, not_lt.mpr small, decoded, Except.mapError]
  · rintro rfl
    exact lawful.empty s decoded

inductive IoError where
  | unexpectedEof
  | writeZero
  | other (message : String)
  deriving DecidableEq, Repr

inductive FrameError where
  | io (e : IoError)
  | closed
  | tooLarge (claimed max : ℕ)
  | malformed (message : String)
  deriving DecidableEq, Repr

def readSignal (c : Cbor F) (reader : Source UInt8 IoError) :
    Except FrameError (Signal F) × Source UInt8 IoError :=
  match reader.readExact .unexpectedEof 4 with
  | (.error .unexpectedEof, reader) => (.error .closed, reader)
  | (.error e, reader) => (.error (.io e), reader)
  | (.ok lenBuf, reader) =>
    let claimed := fromBeBytes lenBuf
    if claimed > Signal.maxSize then (.error (.tooLarge claimed Signal.maxSize), reader)
    else if claimed = 0 then (.error (.malformed "zero-length frame"), reader)
    else
      match reader.readExact .unexpectedEof claimed with
      | (.error e, reader) => (.error (.io e), reader)
      | (.ok body, reader) =>
        ((Signal.decode c body).mapError fun e => .malformed e.message, reader)

def writeSignal (c : Cbor F) (writer : Sink UInt8 IoError) (signal : Signal F) :
    Except FrameError Unit × Sink UInt8 IoError :=
  match signal.encode c with
  | .error e => (.error (.malformed e.message), writer)
  | .ok body =>
    if body.length ≥ 256 ^ 4 then (.error (.tooLarge body.length Signal.maxSize), writer)
    else
      match writer.writeAll .writeZero (toBeBytes 4 body.length) with
      | (.error e, writer) => (.error (.io e), writer)
      | (.ok (), writer) =>
        match writer.writeAll .writeZero body with
        | (.error e, writer) => (.error (.io e), writer)
        | (.ok (), writer) =>
          match writer.flush with
          | (.error e, writer) => (.error (.io e), writer)
          | (.ok (), writer) => (.ok (), writer)

def writeSignals (c : Cbor F) (writer : Sink UInt8 IoError) :
    List (Signal F) → Except FrameError Unit × Sink UInt8 IoError
  | [] => (.ok (), writer)
  | s :: rest =>
    match writeSignal c writer s with
    | (.error e, writer) => (.error e, writer)
    | (.ok (), writer) => writeSignals c writer rest

def readSignals (c : Cbor F) :
    ℕ → Source UInt8 IoError → List (Except FrameError (Signal F)) × Source UInt8 IoError
  | 0, reader => ([], reader)
  | n + 1, reader =>
    ((readSignal c reader).1 :: (readSignals c n (readSignal c reader).2).1,
      (readSignals c n (readSignal c reader).2).2)

def frame (body : Bytes) : Bytes := toBeBytes 4 body.length ++ body

theorem writeSignal_ok {w w' : Sink UInt8 IoError} {s : Signal F}
    (done : writeSignal c w s = (.ok (), w')) :
    ∃ body, s.encode c = .ok body ∧ w'.written = w.written ++ frame body := by
  unfold writeSignal at done
  cases encoded : s.encode c with
  | error e => simp [encoded] at done
  | ok body =>
    simp only [encoded] at done
    split at done
    · simp at done
    · rcases header : w.writeAll .writeZero (toBeBytes 4 body.length) with ⟨e | _, w₁⟩
      · simp [header] at done
      rcases rest : w₁.writeAll .writeZero body with ⟨e | _, w₂⟩
      · simp [header, rest] at done
      rcases flushed : w₂.flush with ⟨e | _, w₃⟩
      · simp [header, rest, flushed] at done
      simp only [header, rest, flushed, Prod.mk.injEq, true_and] at done
      subst done
      have first := Sink.writeAll_written (congrArg Prod.fst header)
      have second := Sink.writeAll_written (congrArg Prod.fst rest)
      have third := w₂.flush_written
      rw [header] at first
      rw [rest] at second
      rw [flushed] at third
      refine ⟨body, rfl, ?_⟩
      rw [third, second, first, frame, List.append_assoc]

/-- A frame that comes first is read as its signal, and the reader stands behind it. -/
theorem readSignal_frame (lawful : c.Lawful) {s : Signal F} {body after : Bytes}
    (encoded : s.encode c = .ok body) {reader : Source UInt8 IoError} (flows : reader.Flows)
    (starts : reader.content = frame body ++ after) :
    ∃ rest : Source UInt8 IoError, readSignal c reader = (.ok s, rest) ∧ rest.Flows ∧
      rest.content = after := by
  obtain ⟨decoded, some⟩ := Signal.decode_encode lawful encoded
  have small := (Signal.encode_eq_ok.mp encoded).2
  have claimed : fromBeBytes (toBeBytes 4 body.length) = body.length := by
    apply fromBeBytes_toBeBytes
    unfold Signal.maxSize at small
    omega
  have long : body.length ≠ 0 := fun h => some (List.eq_nil_of_length_eq_zero h)
  rw [frame, List.append_assoc] at starts
  obtain ⟨reader₁, header, flows₁, starts₁⟩ := flows.readExact_eq .unexpectedEof starts
  obtain ⟨reader₂, rest, flows₂, starts₂⟩ := flows₁.readExact_eq .unexpectedEof starts₁
  refine ⟨reader₂, ?_, flows₂, starts₂⟩
  rw [toBeBytes_length] at header
  simp only [readSignal, header, claimed, gt_iff_lt, not_lt.mpr small, if_false, long, rest,
    decoded, Except.mapError]

theorem readSignal_nil : readSignal c [] = (.error .closed, []) := by
  simp [readSignal, Source.readExact_nil]

theorem readSignals_nil (k : ℕ) :
    readSignals c k [] = (List.replicate k (.error .closed), []) := by
  induction k with
  | zero => rfl
  | succ k ih => simp [readSignals, readSignal_nil, ih, List.replicate_succ]

theorem writeSignals_ok (lawful : c.Lawful) {signals : List (Signal F)}
    {w w' : Sink UInt8 IoError} (done : writeSignals c w signals = (.ok (), w')) :
    ∃ frames, w'.written = w.written ++ frames ∧
      ∀ reader : Source UInt8 IoError, reader.Flows → reader.content = frames → ∀ k,
        readSignals c (signals.length + k) reader =
          (signals.map .ok ++ List.replicate k (.error .closed), []) := by
  induction signals generalizing w with
  | nil =>
    obtain ⟨_, rfl⟩ := Prod.mk.inj done
    refine ⟨[], by simp, ?_⟩
    intro reader flows empty k
    rw [flows.ended empty]
    simpa using readSignals_nil k
  | cons s rest ih =>
    rcases first : writeSignal c w s with ⟨e | _, w₁⟩
    · simp [writeSignals, first] at done
    simp only [writeSignals, first] at done
    obtain ⟨body, encoded, written⟩ := writeSignal_ok first
    obtain ⟨frames, written', reads⟩ := ih done
    refine ⟨frame body ++ frames, by rw [written', written, List.append_assoc], ?_⟩
    intro reader flows starts k
    obtain ⟨reader₁, read, flows₁, starts₁⟩ := readSignal_frame lawful encoded flows starts
    have onward := reads reader₁ flows₁ starts₁ k
    rw [List.length_cons, Nat.add_right_comm, readSignals, read, onward]
    rfl

/-- What a read took of the stream belongs to one frame, and a signal is all of a frame's body. -/
structure Framed (c : Cbor F) (taken : Bytes) (result : Except FrameError (Signal F)) : Prop where
  accepted : ∀ s, result = .ok s → ∃ header body, taken = header ++ body ∧ header.length = 4 ∧
    fromBeBytes header = body.length ∧ 1 ≤ body.length ∧ body.length ≤ Signal.maxSize ∧
    Signal.decode c body = .ok s
  within : taken.length < 4 ∨ ∃ header body, taken = header ++ body ∧ header.length = 4 ∧
    body.length ≤ fromBeBytes header ∧
    (fromBeBytes header = 0 ∨ fromBeBytes header > Signal.maxSize → body = [])

theorem Framed.of_error {taken : Bytes} {e : FrameError}
    (within : taken.length < 4 ∨ ∃ header body, taken = header ++ body ∧ header.length = 4 ∧
      body.length ≤ fromBeBytes header ∧
      (fromBeBytes header = 0 ∨ fromBeBytes header > Signal.maxSize → body = [])) :
    Framed c taken (.error e) where
  accepted := by simp
  within := within

theorem readSignal_framed (c : Cbor F) (reader : Source UInt8 IoError) :
    ∃ taken, reader.content = taken ++ (readSignal c reader).2.content ∧
      Framed c taken (readSignal c reader).1 := by
  obtain ⟨header, split, _, whole, short⟩ := reader.readExact_takes IoError.unexpectedEof 4
  rcases read : reader.readExact .unexpectedEof 4 with ⟨e | lenBuf, reader₁⟩
  · -- the header is cut short
    rw [read] at split short
    refine ⟨header, ?_⟩
    have cut : header.length < 4 := short e rfl
    cases e with
    | unexpectedEof => simpa only [readSignal, read] using ⟨split, Framed.of_error (.inl cut)⟩
    | writeZero => simpa only [readSignal, read] using ⟨split, Framed.of_error (.inl cut)⟩
    | other message => simpa only [readSignal, read] using ⟨split, Framed.of_error (.inl cut)⟩
  rw [read] at split whole
  obtain ⟨rfl, length⟩ := whole lenBuf rfl
  by_cases large : fromBeBytes header > Signal.maxSize
  · refine ⟨header, ?_⟩
    simp only [readSignal, read, large, if_true]
    exact ⟨split, .of_error (.inr ⟨header, [], by simp, length, by simp, fun _ => rfl⟩)⟩
  by_cases zero : fromBeBytes header = 0
  · refine ⟨header, ?_⟩
    simp only [readSignal, read, zero, if_true]
    exact ⟨split, .of_error (.inr ⟨header, [], by simp, length, by simp, fun _ => rfl⟩)⟩
  obtain ⟨body, split', within, whole', _⟩ :=
    reader₁.readExact_takes IoError.unexpectedEof (fromBeBytes header)
  rcases read' : reader₁.readExact .unexpectedEof (fromBeBytes header) with ⟨e | bytes, reader₂⟩
  · -- the body is cut short
    rw [read'] at split'
    refine ⟨header ++ body, ?_⟩
    simp only [readSignal, read, large, if_false, zero, read']
    refine ⟨by rw [split, split', List.append_assoc], .of_error (.inr ⟨header, body, rfl, length,
      within, ?_⟩)⟩
    omega
  rw [read'] at split' whole'
  obtain ⟨rfl, length'⟩ := whole' bytes rfl
  refine ⟨header ++ body, ?_⟩
  simp only [readSignal, read, large, if_false, zero, read']
  refine ⟨by rw [split, split', List.append_assoc], ?_, ?_⟩
  · intro s accepted
    refine ⟨header, body, rfl, length, length'.symm, by omega, by omega, ?_⟩
    cases decoded : Signal.decode c body with
    | error e => simp [decoded, Except.mapError] at accepted
    | ok t => simpa [decoded, Except.mapError] using accepted
  · exact .inr ⟨header, body, rfl, length, within, by omega⟩

/-- Signals written in a row are read in that row, however the bytes are cut, and no read goes
beyond its own frame. -/
structure Cbor.Streams (c : Cbor F) : Prop where
  roundTrip : ∀ (signals : List (Signal F)) (w w' : Sink UInt8 IoError),
    writeSignals c w signals = (.ok (), w') → ∃ frames, w'.written = w.written ++ frames ∧
      ∀ chunks : List Bytes, (∀ xs ∈ chunks, xs ≠ []) → chunks.flatten = frames → ∀ k,
        readSignals c (signals.length + k) (chunks.map .chunk) =
          (signals.map .ok ++ List.replicate k (.error .closed), [])
  framed : ∀ reader : Source UInt8 IoError, ∃ taken,
    reader.content = taken ++ (readSignal c reader).2.content ∧
      Framed c taken (readSignal c reader).1

theorem signals_stream (c : Cbor F) (lawful : c.Lawful) : c.Streams where
  roundTrip := by
    intro signals w w' done
    obtain ⟨frames, written, reads⟩ := writeSignals_ok lawful done
    refine ⟨frames, written, ?_⟩
    intro chunks some cut k
    apply reads _ (Source.flows_chunks some)
    rw [Source.content_chunks, cut]
  framed := readSignal_framed c

def bare (id : SignalId) : Signal ℚ :=
  { id, signalType := .data, version := 1, origin := ⟨[]⟩, signature := [], timestamp := 0,
    payload := .null, encoding := .cbor, weight := 0, ttl := 0, scope := .flood 0,
    correlationId := none, trace := [], tags := [], delivery := .bestEffort }

def Signal.isBare (s : Signal ℚ) : Bool :=
  match s.payload with
  | .null =>
    s.signalType = .data && s.version = 1 && s.origin.bytes = [] && s.signature = [] &&
      s.timestamp = 0 && s.encoding = .cbor && s.weight = 0 && s.ttl = 0 && s.scope = .flood 0 &&
      s.correlationId = none && s.trace = [] && s.tags = [] && s.delivery = .bestEffort
  | _ => false

theorem Signal.eq_bare {s : Signal ℚ} (h : s.isBare = true) : s = bare s.id := by
  rcases s with ⟨id, signalType, version, ⟨origin⟩, signature, timestamp, payload, encoding, weight,
    ttl, scope, correlationId, trace, tags, delivery⟩
  cases payload with
  | null =>
    simp only [isBare, Bool.and_eq_true, decide_eq_true_eq] at h
    obtain ⟨⟨⟨⟨⟨⟨⟨⟨⟨⟨⟨⟨rfl, rfl⟩, rfl⟩, rfl⟩, rfl⟩, rfl⟩, rfl⟩, rfl⟩, rfl⟩, rfl⟩, rfl⟩, rfl⟩, rfl⟩ := h
    rfl
  | bool b => simp [isBare] at h
  | number n => simp [isBare] at h
  | float bits => simp [isBare] at h
  | string text => simp [isBare] at h
  | array xs => simp [isBare] at h
  | object fields => simp [isBare] at h

def bareCbor : Cbor ℚ where
  toVec s := if s.isBare then .ok (toBeBytes 16 s.id.ulid.toNat) else .error "not bare"
  fromSlice bytes :=
    if bytes.length = 16 then .ok (bare ⟨BitVec.ofNat 128 (fromBeBytes bytes)⟩)
    else .error "not bare"

theorem bareCbor_lawful : bareCbor.Lawful where
  undoes := by
    intro s bytes encoded
    simp only [bareCbor] at encoded ⊢
    split at encoded
    · rename_i isBare
      simp only [Except.ok.injEq] at encoded
      subst encoded
      rw [toBeBytes_length, if_pos rfl, fromBeBytes_toBeBytes, BitVec.ofNat_toNat,
        BitVec.setWidth_eq, ← s.eq_bare isBare]
      exact s.id.ulid.isLt.trans_le (by norm_num)
    · simp at encoded
  empty := by simp [bareCbor]

theorem bare_signals_stream :
    bareCbor.Streams ∧
      (writeSignals bareCbor ⟨[.ok 1, .ok 2], []⟩ [bare ⟨7⟩, bare ⟨8⟩]).1.isOk = true ∧
      (writeSignals bareCbor ⟨[.ok 1, .ok 2], []⟩ [bare ⟨7⟩, bare ⟨8⟩]).2.written =
        frame (toBeBytes 16 7) ++ frame (toBeBytes 16 8) :=
  ⟨signals_stream bareCbor bareCbor_lawful, by decide +kernel, by decide +kernel⟩

end OpenNtl
