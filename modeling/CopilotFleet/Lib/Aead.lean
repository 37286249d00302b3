import Mathlib.Data.List.Basic
import Mathlib.Data.List.Nodup

/-!
# Ideal Authenticated Encryption

An AEAD in the ideal model is a log. Sealing appends what was sealed and under
which key, nonce and associated data; opening succeeds exactly when the log
holds that box under the same three, and answers what was sealed. Which bytes
the box is made of does not matter, so the cipher that produces them is a
parameter and nothing is assumed about it.

The use made of an AEAD by a channel is narrower: one key, a nonce counted up
from zero. `Stream` says a log used a key that way, and `stream_open` is the
fact such a channel rests on: what opens under the `i`-th nonce is the `i`-th
thing sealed.

## Main definitions

* `Entry`: One use of the cipher.
* `sealBox`: Sealing, which extends the log.
* `openBox`: Opening, which consults it.
* `Stream`: A key was used with the `i`-th nonce for the `i`-th plaintext.

## Theorems

* `openBox_eq_some`: What opens was sealed under the same three.
* `stream_seal`: The next seal of a stream extends it.
* `stream_seal_other`: A seal under another key leaves a stream alone.
* `stream_open`: The `i`-th nonce opens only the `i`-th plaintext.
* `stream_nonces`: The nonces a stream used are those of its positions.
* `stream_nonces_nodup`: A stream with distinct nonces repeats none.
* `nonces_nodup_of_uses`: Uses that never repeat do not under one key.
* `uses_nodup`: Two such keys are never used twice with one nonce.
-/

namespace CopilotFleet

namespace Aead

/-- One use of the cipher: what was sealed, under what, into which box. -/
structure Entry (κ ν δ π χ : Type*) where
  key : κ
  nonce : ν
  data : δ
  plaintext : π
  box : χ

variable {κ ν δ π χ : Type*}

/-- Seal one plaintext: the box, and the log with this use recorded. -/
def sealBox (encrypt : κ → ν → δ → π → χ) (log : List (Entry κ ν δ π χ))
    (key : κ) (nonce : ν) (data : δ) (plaintext : π) : χ × List (Entry κ ν δ π χ) :=
  let box := encrypt key nonce data plaintext
  (box, log ++ [⟨key, nonce, data, plaintext, box⟩])

/-- Open a box: the plaintext some recorded use sealed into it, if any. -/
def openBox [DecidableEq κ] [DecidableEq ν] [DecidableEq δ] [DecidableEq χ]
    (log : List (Entry κ ν δ π χ)) (key : κ) (nonce : ν) (data : δ) (box : χ) : Option π :=
  (log.find? fun e =>
    decide (e.key = key ∧ e.nonce = nonce ∧ e.data = data ∧ e.box = box)).map (·.plaintext)

theorem openBox_eq_some [DecidableEq κ] [DecidableEq ν] [DecidableEq δ] [DecidableEq χ]
    {log : List (Entry κ ν δ π χ)} {key : κ} {nonce : ν} {data : δ} {box : χ} {p : π}
    (h : openBox log key nonce data box = some p) :
    ∃ e ∈ log, e.key = key ∧ e.nonce = nonce ∧ e.data = data ∧ e.box = box ∧
      e.plaintext = p := by
  unfold openBox at h
  rw [Option.map_eq_some_iff] at h
  rcases h with ⟨e, hfind, hp⟩
  have huse := List.find?_some hfind
  rw [decide_eq_true_eq] at huse
  exact ⟨e, List.mem_of_find?_eq_some hfind, huse.1, huse.2.1, huse.2.2.1, huse.2.2.2, hp⟩

variable [DecidableEq κ]

/-- Under `key` the log holds `sealed`, in order, the `i`-th of them under the
    `i`-th nonce. -/
def Stream (log : List (Entry κ ν δ π χ)) (key : κ) (nonce : Nat → ν) (sealed : List π) : Prop :=
  (log.filter (·.key = key)).map (fun e => (e.nonce, e.plaintext)) =
    sealed.zipIdx.map fun p => (nonce p.2, p.1)

theorem stream_nil (key : κ) (nonce : Nat → ν) :
    Stream ([] : List (Entry κ ν δ π χ)) key nonce [] := rfl

theorem stream_seal {log : List (Entry κ ν δ π χ)} {key : κ} {nonce : Nat → ν} {sealed : List π}
    (h : Stream log key nonce sealed) (encrypt : κ → ν → δ → π → χ) (data : δ) (p : π) :
    Stream (sealBox encrypt log key (nonce sealed.length) data p).2 key nonce (sealed ++ [p]) := by
  unfold Stream at h ⊢
  simp [sealBox, List.zipIdx_append, h]

theorem stream_seal_other {log : List (Entry κ ν δ π χ)} {key other : κ} {nonce : Nat → ν}
    {sealed : List π} (h : Stream log key nonce sealed) (hne : other ≠ key)
    (encrypt : κ → ν → δ → π → χ) (n : ν) (data : δ) (p : π) :
    Stream (sealBox encrypt log other n data p).2 key nonce sealed := by
  unfold Stream at h ⊢
  simp [sealBox, hne, h]

/-- An entry of a stream's log is one of its plaintexts at its own position. -/
theorem stream_entry {log : List (Entry κ ν δ π χ)} {key : κ} {nonce : Nat → ν} {sealed : List π}
    (h : Stream log key nonce sealed) {e : Entry κ ν δ π χ} (he : e ∈ log) (hkey : e.key = key) :
    ∃ i, sealed[i]? = some e.plaintext ∧ e.nonce = nonce i := by
  have hmem : (e.nonce, e.plaintext) ∈ sealed.zipIdx.map fun p => (nonce p.2, p.1) := by
    rw [← h, List.mem_map]
    exact ⟨e, List.mem_filter.mpr ⟨he, by simpa using hkey⟩, rfl⟩
  rw [List.mem_map] at hmem
  rcases hmem with ⟨⟨p, i⟩, hp, heq⟩
  simp only [Prod.mk.injEq] at heq
  rw [List.mk_mem_zipIdx_iff_getElem?] at hp
  exact ⟨i, by rw [hp, heq.2], heq.1.symm⟩

theorem stream_open [DecidableEq ν] [DecidableEq δ] [DecidableEq χ]
    {log : List (Entry κ ν δ π χ)} {key : κ} {nonce : Nat → ν} {sealed : List π}
    (h : Stream log key nonce sealed) {i : Nat}
    (hinj : ∀ j < sealed.length, nonce j = nonce i → j = i)
    {data : δ} {box : χ} {p : π} (hopen : openBox log key (nonce i) data box = some p) :
    sealed[i]? = some p := by
  rcases openBox_eq_some hopen with ⟨e, he, hkey, hnonce, _, _, hp⟩
  rcases stream_entry h he hkey with ⟨j, hj, hnj⟩
  have hlt : j < sealed.length := (List.getElem?_eq_some_iff.mp hj).1
  have hji : j = i := hinj j hlt (by rw [← hnj, hnonce])
  rw [← hji, hj, hp]

/-- The nonces a stream used are those of its positions. -/
theorem stream_nonces {log : List (Entry κ ν δ π χ)} {key : κ} {nonce : Nat → ν}
    {sealed : List π} (h : Stream log key nonce sealed) :
    (log.filter (·.key = key)).map (·.nonce) = (List.range sealed.length).map nonce := by
  have hfst := congrArg (List.map Prod.fst) h
  simp only [List.map_map] at hfst
  rw [show (fun e : Entry κ ν δ π χ => e.nonce) =
    Prod.fst ∘ fun e => (e.nonce, e.plaintext) from rfl, hfst, List.range_eq_range',
    ← List.zipIdx_map_snd 0 sealed, List.map_map]
  rfl

theorem stream_nonces_nodup {log : List (Entry κ ν δ π χ)} {key : κ} {nonce : Nat → ν}
    {sealed : List π} (h : Stream log key nonce sealed)
    (hinj : ∀ i < sealed.length, ∀ j < sealed.length, nonce i = nonce j → i = j) :
    ((log.filter (·.key = key)).map (·.nonce)).Nodup := by
  rw [stream_nonces h]
  refine List.Nodup.map_on ?_ List.nodup_range
  intro i hi j hj heq
  exact hinj i (List.mem_range.mp hi) j (List.mem_range.mp hj) heq

/-- Two keys whose nonces never repeat are never used twice with one nonce. -/
theorem uses_nodup {log : List (Entry κ ν δ π χ)} {k l : κ}
    (hk : ((log.filter (·.key = k)).map (·.nonce)).Nodup)
    (hl : ((log.filter (·.key = l)).map (·.nonce)).Nodup) :
    ((log.filter fun e => e.key = k ∨ e.key = l).map fun e => (e.key, e.nonce)).Nodup := by
  unfold List.Nodup at hk hl ⊢
  rw [List.pairwise_map, List.pairwise_filter] at hk hl ⊢
  refine (hk.and hl).imp ?_
  intro a b hab ha hb heq
  simp only [decide_eq_true_eq, Prod.mk.injEq] at hab ha hb heq
  rcases ha with ha | ha
  · exact hab.1 ha (by rw [← heq.1, ha]) heq.2
  · exact hab.2 ha (by rw [← heq.1, ha]) heq.2

/-- What was never used twice was in particular not under the first key. -/
theorem nonces_nodup_of_uses {log : List (Entry κ ν δ π χ)} {k l : κ}
    (h : ((log.filter fun e => e.key = k ∨ e.key = l).map fun e => (e.key, e.nonce)).Nodup) :
    ((log.filter (·.key = k)).map (·.nonce)).Nodup := by
  unfold List.Nodup at h ⊢
  rw [List.pairwise_map, List.pairwise_filter] at h ⊢
  refine h.imp ?_
  intro a b hab ha hb heq
  simp only [decide_eq_true_eq] at hab ha hb
  exact hab (.inl ha) (.inl hb) (by rw [ha, hb, heq])

end Aead

end CopilotFleet
