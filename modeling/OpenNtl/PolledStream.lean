import Mathlib.Data.List.Basic

/-! # Streams read and written in pieces

A source is what polling it gives in turn, and a sink is what its polls take. Both loops go on
until everything asked for is through, and so the pieces do not show in what a caller sees.
-/
namespace PolledStream

variable {α ε : Type}

/-- What a poll of a source gives. A chunk of nothing is the end of the stream. -/
inductive Poll (α ε : Type) where
  | chunk (xs : List α)
  | failed (e : ε)
  deriving Repr

abbrev Source (α ε : Type) := List (Poll α ε)

namespace Source

def content : Source α ε → List α
  | [] => []
  | .chunk xs :: rest => xs ++ content rest
  | .failed _ :: rest => content rest

def Flows (source : Source α ε) : Prop := ∀ p ∈ source, ∃ xs, xs ≠ [] ∧ p = .chunk xs

/-- `read_exact`: so many elements, or what kept them from coming. -/
def readExact (eof : ε) : Source α ε → ℕ → Except ε (List α) × Source α ε
  | source, 0 => (.ok [], source)
  | [], _ + 1 => (.error eof, [])
  | .failed e :: rest, _ + 1 => (.error e, rest)
  | .chunk [] :: rest, _ + 1 => (.error eof, rest)
  | .chunk (x :: xs) :: rest, n + 1 =>
    if n < xs.length then (.ok (x :: xs.take n), .chunk (xs.drop n) :: rest)
    else
      ((readExact eof rest (n - xs.length)).1.map (x :: xs ++ ·),
        (readExact eof rest (n - xs.length)).2)

/-- What was taken of the stream came first in it, and is no more than was asked for. -/
structure Takes (source : Source α ε) (n : ℕ) (result : Except ε (List α)) (rest : Source α ε)
    (taken : List α) : Prop where
  split : source.content = taken ++ rest.content
  within : taken.length ≤ n
  whole : ∀ xs, result = .ok xs → taken = xs ∧ xs.length = n
  short : ∀ e, result = .error e → taken.length < n

theorem readExact_takes (eof : ε) (source : Source α ε) (n : ℕ) :
    ∃ taken, Takes source n (readExact eof source n).1 (readExact eof source n).2 taken := by
  induction source, n using readExact.induct with
  | case1 source =>
    refine ⟨[], by simp [readExact], by simp, ?_, ?_⟩ <;> simp [readExact]
  | case2 n =>
    refine ⟨[], by simp [readExact], by simp, ?_, ?_⟩ <;> simp [readExact]
  | case3 e rest n =>
    refine ⟨[], by simp [readExact, content], by simp, ?_, ?_⟩ <;> simp [readExact]
  | case4 rest n =>
    refine ⟨[], by simp [readExact, content], by simp, ?_, ?_⟩ <;> simp [readExact]
  | case5 x xs rest n room =>
    refine ⟨x :: xs.take n, ?_, ?_, ?_, ?_⟩
    · simp only [readExact, room, if_true, content, List.cons_append]
      rw [← List.append_assoc, List.take_append_drop]
    · simp only [List.length_cons, List.length_take]
      omega
    · simp only [readExact, room, if_true]
      rintro _ ⟨⟩
      refine ⟨rfl, ?_⟩
      simp only [List.length_cons, List.length_take]
      omega
    · simp [readExact, room]
  | case6 x xs rest n full ih =>
    obtain ⟨taken, split, within, whole, short⟩ := ih
    refine ⟨x :: xs ++ taken, ?_, ?_, ?_, ?_⟩
    · simp [readExact, full, content, split]
    · simp only [List.length_append, List.length_cons]
      omega
    · simp only [readExact, full, if_false]
      intro ys read
      cases result : (readExact eof rest (n - xs.length)).1 with
      | error e => simp [result, Except.map] at read
      | ok zs =>
        obtain ⟨rfl, length⟩ := whole zs result
        rw [result] at read
        simp only [Except.map, Except.ok.injEq] at read
        refine ⟨read, ?_⟩
        rw [← read]
        simp only [List.length_append, List.length_cons]
        omega
    · simp only [readExact, full, if_false]
      intro e read
      cases result : (readExact eof rest (n - xs.length)).1 with
      | error e' =>
        have := short e' result
        simp only [List.length_append, List.length_cons]
        omega
      | ok zs => simp [result, Except.map] at read

theorem Flows.tail {p : Poll α ε} {rest : Source α ε} (flows : Flows (p :: rest)) : Flows rest :=
  fun q mem => flows q (List.mem_cons_of_mem p mem)

theorem Flows.ended {source : Source α ε} (flows : source.Flows) (empty : source.content = []) :
    source = [] := by
  cases source with
  | nil => rfl
  | cons p rest =>
    obtain ⟨xs, some, rfl⟩ := flows p (List.mem_cons_self ..)
    exact absurd (List.append_eq_nil_iff.mp empty).1 some

theorem Flows.readExact_eq (eof : ε) {source : Source α ε} (flows : source.Flows)
    {before after : List α} (starts : source.content = before ++ after) :
    ∃ rest : Source α ε, readExact eof source before.length = (.ok before, rest) ∧ rest.Flows ∧
      rest.content = after := by
  induction source generalizing before with
  | nil =>
    obtain ⟨rfl, rfl⟩ := List.append_eq_nil_iff.mp starts.symm
    exact ⟨[], rfl, flows, rfl⟩
  | cons p rest ih =>
    obtain ⟨chunk, some, rfl⟩ := flows p (List.mem_cons_self ..)
    cases before with
    | nil => exact ⟨_, by simp [readExact], flows, starts⟩
    | cons b before =>
      cases chunk with
      | nil => exact absurd rfl some
      | cons x xs =>
        simp only [content, List.cons_append, List.cons.injEq] at starts
        obtain ⟨rfl, starts⟩ := starts
        by_cases room : before.length < xs.length
        · -- the chunk holds more than is asked for
          obtain ⟨kept, rfl, remain⟩ :
              ∃ kept, xs = before ++ kept ∧ after = kept ++ content rest := by
            rcases List.append_eq_append_iff.mp starts with ⟨more, rfl, _⟩ | ⟨kept, rfl, eq⟩
            · simp only [List.length_append] at room
              omega
            · exact ⟨kept, rfl, eq⟩
          have left : kept ≠ [] := by
            rintro rfl
            simp at room
          refine ⟨.chunk kept :: rest, by simp [readExact, left], ?_, remain.symm⟩
          intro q mem
          rcases List.mem_cons.mp mem with rfl | mem
          · exact ⟨kept, left, rfl⟩
          · exact flows q (List.mem_cons_of_mem _ mem)
        · -- the chunk is used up
          obtain ⟨more, rfl, onward⟩ :
              ∃ more, before = xs ++ more ∧ content rest = more ++ after := by
            rcases List.append_eq_append_iff.mp starts with ⟨more, rfl, eq⟩ | ⟨kept, rfl, eq⟩
            · exact ⟨more, rfl, eq⟩
            · obtain rfl : kept = [] := by
                apply List.eq_nil_of_length_eq_zero
                simp only [List.length_append] at room
                omega
              exact ⟨[], by simp, by simpa using eq.symm⟩
          obtain ⟨rest', read, flows', starts'⟩ := ih flows.tail onward
          refine ⟨rest', ?_, flows', starts'⟩
          have left : (xs ++ more).length - xs.length = more.length := by
            simp only [List.length_append]
            omega
          simp only [List.length_cons, readExact, room, if_false, left, read, Except.map,
            List.cons_append]

theorem Flows.readExact_short (eof : ε) {source : Source α ε} (flows : source.Flows) {n : ℕ}
    (short : source.content.length < n) : readExact eof source n = (.error eof, []) := by
  induction source, n using readExact.induct with
  | case1 source => simp at short
  | case2 n => simp [readExact]
  | case3 e rest n =>
    obtain ⟨xs, _, chunk⟩ := flows _ (List.mem_cons_self ..)
    cases chunk
  | case4 rest n =>
    obtain ⟨xs, some, chunk⟩ := flows _ (List.mem_cons_self ..)
    cases chunk
    exact absurd rfl some
  | case5 x xs rest n room =>
    simp only [content, List.length_append, List.length_cons] at short
    omega
  | case6 x xs rest n full ih =>
    have left : (content rest).length < n - xs.length := by
      simp only [content, List.length_append, List.length_cons] at short
      omega
    simp only [readExact, full, if_false, ih flows.tail left, Except.map]

theorem readExact_nil (eof : ε) (n : ℕ) :
    readExact eof ([] : Source α ε) (n + 1) = (.error eof, []) := by
  simp [readExact]

theorem flows_chunks {chunks : List (List α)} (some : ∀ xs ∈ chunks, xs ≠ []) :
    Flows (chunks.map (Poll.chunk (ε := ε))) := by
  intro p mem
  obtain ⟨xs, held, rfl⟩ := List.mem_map.mp mem
  exact ⟨xs, some xs held, rfl⟩

theorem content_chunks (chunks : List (List α)) :
    content (chunks.map (Poll.chunk (ε := ε))) = chunks.flatten := by
  induction chunks with
  | nil => rfl
  | cons xs rest ih => simp [content, ih]

end Source

/-- How much each poll to come takes. Past them all of the rest is taken. -/
structure Sink (α ε : Type) where
  polls : List (Except ε ℕ)
  written : List α

namespace Sink

def writeFrom (zero : ε) : List (Except ε ℕ) → List α → List α → Except ε Unit × Sink α ε
  | polls, written, [] => (.ok (), ⟨polls, written⟩)
  | [], written, x :: xs => (.ok (), ⟨[], written ++ x :: xs⟩)
  | .error e :: polls, written, _ :: _ => (.error e, ⟨polls, written⟩)
  | .ok n :: polls, written, x :: xs =>
    if n = 0 then (.error zero, ⟨polls, written⟩)
    else writeFrom zero polls (written ++ (x :: xs).take n) ((x :: xs).drop n)

def writeAll (zero : ε) (w : Sink α ε) (xs : List α) : Except ε Unit × Sink α ε :=
  writeFrom zero w.polls w.written xs

def flush (w : Sink α ε) : Except ε Unit × Sink α ε :=
  match w.polls with
  | [] => (.ok (), w)
  | .error e :: polls => (.error e, { w with polls })
  | .ok _ :: polls => (.ok (), { w with polls })

theorem writeFrom_written {zero : ε} {polls : List (Except ε ℕ)} {written xs : List α}
    (done : (writeFrom zero polls written xs).1 = .ok ()) :
    (writeFrom zero polls written xs).2.written = written ++ xs := by
  induction polls, written, xs using writeFrom.induct with
  | case1 polls written => simp [writeFrom]
  | case2 written x xs => simp [writeFrom]
  | case3 e polls written x xs => simp [writeFrom] at done
  | case4 polls written x xs => simp [writeFrom] at done
  | case5 n polls written x xs some ih =>
    simp only [writeFrom, some, if_false] at done ⊢
    rw [ih done, List.append_assoc, List.take_append_drop]

theorem writeAll_written {zero : ε} {w : Sink α ε} {xs : List α}
    (done : (w.writeAll zero xs).1 = .ok ()) :
    (w.writeAll zero xs).2.written = w.written ++ xs :=
  writeFrom_written done

theorem flush_written (w : Sink α ε) : w.flush.2.written = w.written := by
  rcases w with ⟨_ | ⟨e | n, polls⟩, written⟩
  · rfl
  · rfl
  · rfl

end Sink
end PolledStream
