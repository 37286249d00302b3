import Mathlib.Data.List.Infix
import Mathlib.Data.List.TakeWhile
import CopilotFleet.Lib.Utf16

/-!
# The Proof of Quiescence in a Stream of Diagnostics

A helper process that has seen the last process of a job exit says so with one
line on its standard error, which it shares with the processes it watches. The
Node takes that line out of the stream and passes everything else on. Bytes
arrive in chunks of any size, so a line may be spread over many of them and one
of them may hold many lines; only what may still become the proof is kept back.

The filter is modelled part by part, where a part of a chunk ends at a newline
or with the chunk. What it comes to is said of the whole stream, split into its
lines, with no mention of chunks.

## Main definitions

* `Filter`: What the filter keeps, and what it has done.
* `transform`, `flush`: One chunk, and the end of the stream.
* `withoutProof`: The stream without its proofs.
* `Matches`: Where the filter stands, some lines and an unfinished one later.

## Theorems

* `Matches.part`, `Matches.endLine`: What a part and a newline come to.
* `Matches.transform`: What a chunk comes to, wherever it ends.
* `quiescenceStderr_exact`: What the filter puts out depends on the stream alone.
-/

namespace CopilotFleet

namespace Quiescence

open Utf16

abbrev Bytes := List UInt8

def newline : UInt8 := 10

def carriageReturn : UInt8 := 13

/-! ### The filter -/

/-- One filter: what is held back and whether the line is passed on as it comes. -/
structure Filter where
  pending : Bytes := []
  passthrough : Bool := false
  /-- What was pushed, in order. -/
  pushed : Bytes := []
  /-- How often `verified` was called. -/
  verified : Nat := 0
deriving DecidableEq

def Filter.push (bytes : Bytes) (s : Filter) : Filter :=
  { s with pushed := s.pushed ++ bytes }

/-- The bytes of the proof. -/
def expected (proof : Text) : Bytes := toUtf8 proof

def expectedCR (proof : Text) : Bytes := toUtf8 proof ++ [carriageReturn]

/-- A part of a chunk that has no newline in it. -/
def Filter.part (proof : Text) (part : Bytes) (s : Filter) : Filter :=
  let s :=
    if s.passthrough then s
    else
      let length := s.pending.length + part.length
      -- A candidate is only made where it is short enough to be compared.
      if length ≤ (expectedCR proof).length ∧
          (expectedCR proof).take length = s.pending ++ part then
        { s with pending := s.pending ++ part }
      else
        { s.push s.pending with
          pending := []
          passthrough := true }
  if s.passthrough then s.push part else s

/-- The newline behind a part. -/
def Filter.endLine (proof : Text) (s : Filter) : Filter :=
  let s :=
    if s.passthrough = false ∧ (s.pending = expected proof ∨ s.pending = expectedCR proof) then
      { s with verified := s.verified + 1 }
    else (s.push s.pending).push [newline]
  { s with
    pending := []
    passthrough := false }

/-- One chunk, from the part that starts where the last one ended. -/
def Filter.transform (proof : Text) (chunk : Bytes) (s : Filter) : Filter :=
  if chunk = [] then s
  else
    let s := s.part proof (chunk.takeWhile (· ≠ newline))
    match _h : chunk.dropWhile (· ≠ newline) with
    | [] => s
    | _ :: rest => (s.endLine proof).transform proof rest
termination_by chunk.length
decreasing_by
  have hle := (List.dropWhile_sublist (· ≠ newline) (l := chunk)).length_le
  rw [_h, List.length_cons] at hle
  omega

def Filter.flush (s : Filter) : Filter := s.push s.pending

/-- The filter of a fresh stream, some chunks later. -/
def quiescenceStderr (proof : Text) (chunks : List Bytes) : Filter :=
  chunks.foldl (fun s chunk => s.transform proof chunk) {}

/-! ### The stream -/

/-- The lines of a stream that a newline ends. -/
def lines (stream : Bytes) : List Bytes := (stream.splitOn newline).dropLast

/-- What stands behind the last newline. -/
def unterminated (stream : Bytes) : Bytes := (stream.splitOn newline).getLastD []

/-- A line that is the proof. -/
def isProof (proof : Text) (line : Bytes) : Bool :=
  line = expected proof || line = expectedCR proof

/-- Lines, each with its newline. -/
def joined (ls : List Bytes) : Bytes := ls.flatMap (· ++ [newline])

/-- The lines that are passed on. -/
def kept (proof : Text) (ls : List Bytes) : List Bytes := ls.filter fun line => !isProof proof line

/-- The stream without its proofs. -/
def withoutProof (proof : Text) (stream : Bytes) : Bytes :=
  joined (kept proof (lines stream)) ++ unterminated stream

/-- How often the proof stands in a stream. -/
def proofs (proof : Text) (stream : Bytes) : Nat := (lines stream).countP (isProof proof)

theorem joined_append (ls ms : List Bytes) : joined (ls ++ ms) = joined ls ++ joined ms :=
  List.flatMap_append

theorem joined_singleton (line : Bytes) : joined [line] = line ++ [newline] := by
  simp [joined]

/-- Splitting what was joined from lines. -/
theorem splitOn_joined {ls : List Bytes} {rest : Bytes} (hls : ∀ l ∈ ls, newline ∉ l)
    (hrest : newline ∉ rest) : (joined ls ++ rest).splitOn newline = ls ++ [rest] := by
  have hplain : ∀ {l : Bytes}, newline ∉ l → ∀ b ∈ l, (b == newline) = false := by
    intro l hl b hb
    rw [beq_eq_false_iff_ne]
    intro h
    exact hl (h ▸ hb)
  induction ls with
  | nil =>
      rw [List.splitOn_eq_splitOnP]
      exact List.splitOnP_eq_singleton (hplain hrest)
  | cons l ls ih =>
      have hcons : joined (l :: ls) ++ rest = l ++ newline :: (joined ls ++ rest) := by
        simp [joined]
      have hl := hplain (hls l List.mem_cons_self)
      rw [hcons, List.splitOn_eq_splitOnP,
        List.splitOnP_append_cons_of_forall_mem hl newline (beq_self_eq_true newline),
        ← List.splitOn_eq_splitOnP, ih fun m hm => hls m (List.mem_cons_of_mem l hm)]
      rfl

theorem lines_joined {ls : List Bytes} {rest : Bytes} (hls : ∀ l ∈ ls, newline ∉ l)
    (hrest : newline ∉ rest) : lines (joined ls ++ rest) = ls := by
  unfold lines
  rw [splitOn_joined hls hrest, List.dropLast_concat]

theorem unterminated_joined {ls : List Bytes} {rest : Bytes} (hls : ∀ l ∈ ls, newline ∉ l)
    (hrest : newline ∉ rest) : unterminated (joined ls ++ rest) = rest := by
  unfold unterminated
  rw [splitOn_joined hls hrest, List.getLastD_concat]

/-! ### What the filter comes to -/

/-- The filter has seen the lines `ls` and the beginning `line` of the next one. -/
structure Matches (proof : Text) (ls : List Bytes) (line : Bytes) (s : Filter) : Prop where
  plain : ∀ l ∈ ls, newline ∉ l
  plain_line : newline ∉ line
  verified : s.verified = ls.countP (isProof proof)
  /-- Nothing of the line is out, and it may still become the proof. -/
  held : s.passthrough = false →
    s.pending = line ∧ line <+: expectedCR proof ∧ s.pushed = joined (kept proof ls)
  /-- All of the line is out, and it is not the proof. -/
  passed : s.passthrough = true →
    s.pending = [] ∧ ¬line <+: expectedCR proof ∧ s.pushed = joined (kept proof ls) ++ line

theorem matches_start (proof : Text) : Matches proof [] [] {} where
  plain := fun _ hl => (nomatch hl)
  plain_line := List.not_mem_nil
  verified := rfl
  held := fun _ => ⟨rfl, List.nil_prefix, rfl⟩
  passed := fun h => (nomatch h)

/-- The comparison of a candidate is whether it begins the longer proof. -/
theorem candidate_iff {line : Bytes} (proof : Text) (part : Bytes) :
    (line.length + part.length ≤ (expectedCR proof).length ∧
      (expectedCR proof).take (line.length + part.length) = line ++ part) ↔
      line ++ part <+: expectedCR proof := by
  rw [List.prefix_iff_eq_take, List.length_append]
  constructor
  · rintro ⟨_, htake⟩
    exact htake.symm
  · intro h
    refine ⟨?_, h.symm⟩
    have hlen := congrArg List.length h
    rw [List.length_append, List.length_take] at hlen
    omega

variable {proof : Text} {ls : List Bytes} {line : Bytes} {s : Filter}

theorem Matches.part (h : Matches proof ls line s) {part : Bytes} (hpart : newline ∉ part) :
    Matches proof ls (line ++ part) (s.part proof part) := by
  have hline : newline ∉ line ++ part := by
    rw [List.mem_append]
    rintro (hmem | hmem)
    · exact h.plain_line hmem
    · exact hpart hmem
  unfold Filter.part
  by_cases hpass : s.passthrough = true
  · rcases h.passed hpass with ⟨hpending, hno, hpushed⟩
    simp only [hpass, if_true]
    refine ⟨h.plain, hline, h.verified, fun hheld => ?_, fun _ => ⟨hpending, ?_, ?_⟩⟩
    · exact absurd (hheld.symm.trans hpass) Bool.false_ne_true
    · -- A line that does not begin the proof does not when it goes on.
      exact fun hpre => hno ((List.prefix_append line part).trans hpre)
    · change s.pushed ++ part = _
      rw [hpushed, List.append_assoc]
  · rw [Bool.not_eq_true] at hpass
    rcases h.held hpass with ⟨hpending, -, hpushed⟩
    by_cases hcand : line ++ part <+: expectedCR proof
    · have hif := (candidate_iff proof part).mpr hcand
      simp only [hpass, hpending, hif, and_self, if_true, Bool.false_eq_true, if_false]
      exact ⟨h.plain, hline, h.verified, fun _ => ⟨rfl, hcand, hpushed⟩,
        fun hp => absurd hp (by simp)⟩
    · have hif := mt (candidate_iff proof part).mp hcand
      simp only [hpass, hpending, if_neg hif, if_true, Bool.false_eq_true, if_false]
      refine ⟨h.plain, hline, h.verified, fun hp => (nomatch hp), fun _ => ⟨rfl, hcand, ?_⟩⟩
      change (s.pushed ++ line) ++ part = _
      rw [hpushed, List.append_assoc]

/-- The proofs begin the longer one of them. -/
theorem prefix_of_isProof (h : isProof proof line = true) : line <+: expectedCR proof := by
  unfold isProof at h
  rw [Bool.or_eq_true, decide_eq_true_iff, decide_eq_true_iff] at h
  rcases h with rfl | rfl
  · exact List.prefix_append _ _
  · exact List.prefix_rfl

theorem Matches.endLine (h : Matches proof ls line s) :
    Matches proof (ls ++ [line]) [] (s.endLine proof) := by
  have hplain : ∀ l ∈ ls ++ [line], newline ∉ l := by
    intro l hl
    rcases List.mem_append.mp hl with hl | hl
    · exact h.plain l hl
    · rw [List.mem_singleton.mp hl]
      exact h.plain_line
  unfold Filter.endLine
  by_cases hproof : isProof proof line = true
  · -- A line that is the proof was held back.
    have hpass : s.passthrough = false := by
      by_contra hp
      rw [Bool.not_eq_false] at hp
      exact (h.passed hp).2.1 (prefix_of_isProof hproof)
    rcases h.held hpass with ⟨hpending, -, hpushed⟩
    have hif : s.passthrough = false ∧
        (s.pending = expected proof ∨ s.pending = expectedCR proof) := by
      rw [hpending]
      exact ⟨hpass, by simpa [isProof] using hproof⟩
    rw [if_pos hif]
    refine ⟨hplain, List.not_mem_nil, ?_, fun _ => ⟨rfl, List.nil_prefix, ?_⟩,
      fun hp => (nomatch hp)⟩
    · change s.verified + 1 = _
      rw [h.verified, List.countP_append, List.countP_singleton, if_pos hproof]
    · change s.pushed = _
      rw [hpushed, kept, kept, List.filter_append]
      simp [hproof]
  · have hif : ¬(s.passthrough = false ∧
        (s.pending = expected proof ∨ s.pending = expectedCR proof)) := by
      rintro ⟨hpass, hor⟩
      rw [(h.held hpass).1] at hor
      exact hproof (by simpa [isProof] using hor)
    rw [if_neg hif]
    -- Held back or passed on, the line goes out as it came.
    have hout : s.pushed ++ s.pending = joined (kept proof ls) ++ line := by
      by_cases hpass : s.passthrough = true
      · rw [(h.passed hpass).1, (h.passed hpass).2.2, List.append_nil]
      · rw [Bool.not_eq_true] at hpass
        rw [(h.held hpass).1, (h.held hpass).2.2]
    refine ⟨hplain, List.not_mem_nil, ?_, fun _ => ⟨rfl, List.nil_prefix, ?_⟩,
      fun hp => (nomatch hp)⟩
    · change s.verified = _
      rw [h.verified, List.countP_append, List.countP_singleton, if_neg hproof, Nat.add_zero]
    · change (s.pushed ++ s.pending) ++ [newline] = _
      have hkept : kept proof (ls ++ [line]) = kept proof ls ++ [line] := by
        rw [kept, kept, List.filter_append]
        simp [hproof]
      rw [hout, hkept, joined_append, joined_singleton, List.append_assoc]

theorem not_mem_part (chunk : Bytes) : newline ∉ chunk.takeWhile (· ≠ newline) := by
  intro hmem
  have h := List.mem_takeWhile_imp hmem
  exact absurd h (by decide)

/-- A chunk, wherever it begins and ends, is some more lines and the beginning of one. -/
theorem Matches.transform {chunk : Bytes} (h : Matches proof ls line s) :
    ∃ ls' line', joined ls ++ line ++ chunk = joined ls' ++ line' ∧
      Matches proof ls' line' (s.transform proof chunk) := by
  fun_induction Filter.transform proof chunk s generalizing ls line with
  | case1 s => exact ⟨ls, line, List.append_nil _, h⟩
  | case2 chunk s hne s' =>
      rename_i hend
      have hall : chunk.takeWhile (· ≠ newline) = chunk := by
        have happ := List.takeWhile_append_dropWhile (p := (· ≠ newline)) (l := chunk)
        rwa [hend, List.append_nil] at happ
      refine ⟨ls, line ++ chunk.takeWhile (· ≠ newline), ?_, h.part (not_mem_part chunk)⟩
      rw [hall, List.append_assoc]
  | case3 chunk s hne s' b rest hrest =>
      rename_i ih
      have hb : b = newline := by
        have hhead := List.head_dropWhile_not (· ≠ newline) (l := chunk)
          (by rw [hrest]; exact List.cons_ne_nil b rest)
        simp only [hrest, List.head_cons] at hhead
        simpa using hhead
      have happ := List.takeWhile_append_dropWhile (p := (· ≠ newline)) (l := chunk)
      rcases ih (h.part (not_mem_part chunk)).endLine with ⟨ls', line', hsplit, hmatch⟩
      refine ⟨ls', line', ?_, hmatch⟩
      rw [← hsplit, joined_append, joined_singleton]
      conv_lhs => rw [← happ, hrest, hb]
      simp

/-- The chunks of a stream. -/
theorem Matches.chunks (chunks : List Bytes) (h : Matches proof ls line s) :
    ∃ ls' line', joined ls ++ line ++ chunks.flatten = joined ls' ++ line' ∧
      Matches proof ls' line' (chunks.foldl (fun s chunk => s.transform proof chunk) s) := by
  induction chunks generalizing ls line s with
  | nil => exact ⟨ls, line, List.append_nil _, h⟩
  | cons chunk rest ih =>
      rcases @Matches.transform proof ls line s chunk h with ⟨ls', line', hsplit, hmatch⟩
      rcases ih hmatch with ⟨ls'', line'', hsplit', hmatch'⟩
      refine ⟨ls'', line'', ?_, hmatch'⟩
      rw [← hsplit', ← hsplit, List.flatten_cons]
      simp only [List.append_assoc]

/-- What is out and what is held back are the lines that are kept, and the last one. -/
theorem Matches.out (h : Matches proof ls line s) :
    s.pushed ++ s.pending = joined (kept proof ls) ++ line := by
  by_cases hpass : s.passthrough = true
  · rw [(h.passed hpass).1, (h.passed hpass).2.2, List.append_nil]
  · rw [Bool.not_eq_true] at hpass
    rw [(h.held hpass).1, (h.held hpass).2.2]

theorem Matches.bound (h : Matches proof ls line s) :
    s.pending.length ≤ (expected proof).length + 1 := by
  by_cases hpass : s.passthrough = true
  · rw [(h.passed hpass).1]
    exact Nat.zero_le _
  · rw [Bool.not_eq_true] at hpass
    have hlen := (h.held hpass).2.1.length_le
    rw [(h.held hpass).1]
    rwa [expectedCR, List.length_append, List.length_singleton] at hlen

/-- **What the filter puts out depends on the stream alone.** However the stream is
    cut into chunks, and at every cut: what is out and what is held back together
    are the stream so far without its proofs, and so is all that is out at its end;
    each proof was reported once; and no more is held back than a proof is long. -/
theorem quiescenceStderr_exact (proof : Text) (chunks : List Bytes) :
    (quiescenceStderr proof chunks).flush.pushed = withoutProof proof chunks.flatten ∧
      (quiescenceStderr proof chunks).flush.verified = proofs proof chunks.flatten ∧
      (quiescenceStderr proof chunks).verified = proofs proof chunks.flatten ∧
      (quiescenceStderr proof chunks).pushed ++ (quiescenceStderr proof chunks).pending =
        withoutProof proof chunks.flatten ∧
      (quiescenceStderr proof chunks).pending.length ≤ (expected proof).length + 1 := by
  rcases (matches_start proof).chunks chunks with ⟨ls, line, hsplit, h⟩
  have hstream : chunks.flatten = joined ls ++ line := hsplit
  have hout := h.out
  have hverified := h.verified
  unfold withoutProof proofs
  rw [hstream, lines_joined h.plain h.plain_line, unterminated_joined h.plain h.plain_line]
  exact ⟨hout, hverified, hverified, hout, h.bound⟩

end Quiescence

end CopilotFleet
