import CopilotFleet.Node.CommandOutput

/-!
# Recovering the Output of a Command

What the journal has of a stream in the end should be the stream, each byte
once. The Node puts the bytes there in two ways, following the files while the
command runs and reading the rest of them afterwards, and the second begins
where the journal's count of the stream's bytes points to.

A write that fails while the files are followed is let go, as the files have its
bytes. But a later write of the same stream may succeed, and then the count no
longer points to where the journal's bytes end in the file: the missed bytes are
not recovered, and as many of the last ones are there twice
(`output_recovered_twice`). So the journal has the streams exactly where what
was put there live is a prefix of each (`output_recovered_iff`), which failing
writes leave alone as long as no write of the stream succeeds after them.

## Main definitions

* `streamBytes`: The bytes of a stream that events carry.
* `Journal.Sound`: What the journal's own counts and gaps come to.
* `Recovering`: A journal that began with some bytes of each stream and goes on by its counts.
* `Recovered`: A journal that has the streams, each byte once.

## Theorems

* `Journal.Sound.output`: What one event preserves.
* `recoverLoop_spec`, `recoverStream_spec`, `recoverRetainedOutput_spec`: What a recovery does.
* `System.Inv.step`: What a step of a run preserves.
* `output_recovered_iff`: When recovered output is the stream.
* `output_recovered_twice`: A failed write that a successful one follows.
-/

namespace CopilotFleet

namespace CommandOutput

open Utf16

/-! ### Gaps -/

/-- A sequence number is counted as a gap. -/
def Covered (gaps : List Gap) (sequence : Nat) : Prop :=
  ∃ gap ∈ gaps, gap.first ≤ sequence ∧ sequence ≤ gap.last

/-- The gaps are of numbers up to `latest`. -/
def Bounded (gaps : List Gap) (latest : Nat) : Prop :=
  ∀ gap ∈ gaps, gap.first ≤ gap.last ∧ gap.last ≤ latest

/-- Gaps that took one more number in, beside those they had. -/
structure Grown (gaps grown : List Gap) (sequence : Nat) : Prop where
  covered : ∀ n, Covered gaps n → Covered grown n
  self : Covered grown sequence
  bounded : Bounded grown sequence

variable {gaps : List Gap} {sequence latest : Nat}

theorem mem_modify {α : Type} {f : α → α} {xs : List α} {i : Nat} {y : α}
    (h : y ∈ xs.modify i f) : y ∈ xs ∨ ∃ x ∈ xs, f x = y := by
  rcases List.mem_iff_getElem?.mp h with ⟨j, hj⟩
  rw [List.getElem?_modify, Option.map_eq_map, Option.map_eq_some_iff] at hj
  rcases hj with ⟨x, hx, hy⟩
  by_cases hij : i = j
  · rw [if_pos hij] at hy
    exact Or.inr ⟨x, List.mem_of_getElem? hx, hy⟩
  · rw [if_neg hij] at hy
    exact Or.inl (hy ▸ List.mem_of_getElem? hx)

theorem modify_mem {α : Type} {f : α → α} {xs : List α} {i : Nat} {x : α} (h : x ∈ xs) :
    x ∈ xs.modify i f ∨ f x ∈ xs.modify i f := by
  rcases List.mem_iff_getElem?.mp h with ⟨j, hj⟩
  have hget : (xs.modify i f)[j]? = some (if i = j then f x else x) := by
    rw [List.getElem?_modify, hj]
    rfl
  by_cases hij : i = j
  · rw [if_pos hij] at hget
    exact Or.inr (List.mem_of_getElem? hget)
  · rw [if_neg hij] at hget
    exact Or.inl (List.mem_of_getElem? hget)

theorem modify_mem_self {α : Type} {f : α → α} {xs : List α} {i : Nat} (h : i < xs.length) :
    ∃ x ∈ xs, f x ∈ xs.modify i f := by
  refine ⟨xs[i], List.getElem_mem h, List.mem_of_getElem? (i := i) ?_⟩
  rw [List.getElem?_modify_eq, List.getElem?_eq_getElem h]
  rfl

/-- A gap grows up to a later number. -/
theorem grown_modify {i : Nat} (hbounded : Bounded gaps latest) (hsequence : latest ≤ sequence)
    (hi : i < gaps.length) : Grown gaps (gaps.modify i (Gap.extend sequence)) sequence := by
  refine ⟨?_, ?_, ?_⟩
  · rintro n ⟨gap, hgap, hfirst, hlast⟩
    have hle := (hbounded gap hgap).2
    rcases modify_mem (f := Gap.extend sequence) (i := i) hgap with hmem | hmem
    · exact ⟨gap, hmem, hfirst, hlast⟩
    · exact ⟨_, hmem, hfirst, by show n ≤ sequence; omega⟩
  · rcases modify_mem_self (f := Gap.extend sequence) hi with ⟨gap, hgap, hmem⟩
    have hle := hbounded gap hgap
    exact ⟨_, hmem, by show gap.first ≤ sequence; omega, Nat.le_refl _⟩
  · intro gap hgap
    rcases mem_modify hgap with hgap | ⟨before, hbefore, rfl⟩
    · have hle := hbounded gap hgap
      exact ⟨hle.1, by omega⟩
    · have hle := hbounded before hbefore
      exact ⟨by show before.first ≤ sequence; omega, Nat.le_refl _⟩

/-- There is one more gap. -/
theorem grown_append (hbounded : Bounded gaps latest) (hsequence : latest ≤ sequence) :
    Grown gaps (gaps ++ [{ first := sequence, last := sequence }]) sequence := by
  refine ⟨?_, ?_, ?_⟩
  · rintro n ⟨gap, hgap, hn⟩
    exact ⟨gap, List.mem_append_left _ hgap, hn⟩
  · exact ⟨_, List.mem_append_right _ (List.mem_singleton_self _), Nat.le_refl _, Nat.le_refl _⟩
  · intro gap hgap
    rw [List.mem_append, List.mem_singleton] at hgap
    rcases hgap with hgap | rfl
    · have hle := hbounded gap hgap
      exact ⟨hle.1, by omega⟩
    · exact ⟨Nat.le_refl _, Nat.le_refl _⟩

theorem length_pos_of_getLast? {p : Gap → Bool} (h : gaps.getLast?.any p = true) :
    gaps.length - 1 < gaps.length := by
  cases gaps with
  | nil => cases h
  | cons gap rest =>
      rw [List.length_cons]
      omega

theorem addGap_grown (hbounded : Bounded gaps latest) (hsequence : latest ≤ sequence) :
    Grown gaps (addGap sequence gaps) sequence := by
  unfold addGap
  by_cases hlast : (gaps.getLast?.any fun last => last.last + 1 = sequence) = true
  · rw [if_pos hlast]
    exact grown_modify hbounded hsequence (length_pos_of_getLast? hlast)
  rw [if_neg hlast]
  by_cases hlength : gaps.length < gapLimit
  · rw [if_pos hlength]
    exact grown_append hbounded hsequence
  · rw [if_neg hlength]
    refine grown_modify hbounded hsequence ?_
    unfold gapLimit at hlength ⊢
    omega

theorem gapAtEnd_grown (hbounded : Bounded gaps latest) (hsequence : latest ≤ sequence) :
    Grown gaps (gapAtEnd sequence gaps) sequence := by
  unfold gapAtEnd
  split
  · rename_i hlast
    exact grown_modify hbounded hsequence (length_pos_of_getLast? hlast)
  · exact grown_append hbounded hsequence

/-! ### The journal's counts -/

/-- The bytes of a stream that events carry, in their order. -/
def streamBytes (stream : Stream) (events : List CommandOutputEvent) : Bytes :=
  (events.filter fun event => event.stream = stream).flatMap (·.data)

theorem streamBytes_snoc (stream : Stream) (events : List CommandOutputEvent)
    (event : CommandOutputEvent) :
    streamBytes stream (events ++ [event]) =
      streamBytes stream events ++ if stream = event.stream then event.data else [] := by
  unfold streamBytes
  rw [List.filter_append, List.flatMap_append, List.filter_singleton]
  by_cases hstream : stream = event.stream
  · rw [if_pos hstream, decide_eq_true hstream.symm]
    simp
  · rw [if_neg hstream, decide_eq_false (Ne.symm hstream)]
    rfl

/-- What the journal's own counts and gaps come to. -/
structure Journal.Sound (j : Journal) : Prop where
  offsets : ∀ stream, j.outputOffset stream = (streamBytes stream j.taken).length
  captured : j.capturedBytes = j.outputOffset .stdout + j.outputOffset .stderr
  ordered : j.taken.Pairwise fun earlier later => earlier.sequence < later.sequence
  latest : ∀ event ∈ j.taken, event.sequence ≤ j.lastSequence
  bounded : Bounded j.gaps j.lastSequence
  rows : j.rows.Sublist j.taken
  accounted : ∀ event ∈ j.taken, event ∈ j.rows ∨ Covered j.gaps event.sequence

theorem Journal.sound_empty : Journal.Sound {} :=
  ⟨fun _ => rfl, rfl, List.Pairwise.nil, by nofun, by nofun, List.Sublist.refl _, by nofun⟩

/-- What one event preserves. -/
theorem Journal.Sound.output {j j' : Journal} {write : Write} {event : CommandOutputEvent}
    (h : j.Sound) (hnext : event.sequence = j.lastSequence + 1)
    (houtput : Journal.output write event j = some j') : j'.Sound ∧ j'.taken = j.taken ++ [event] := by
  unfold Journal.output at houtput
  split at houtput
  · cases houtput
  cases houtput
  have hsequence : j.lastSequence ≤ event.sequence := by omega
  have hgrown := addGap_grown h.bounded hsequence
  refine ⟨⟨?_, ?_, ?_, ?_, ?_, ?_, ?_⟩, rfl⟩
  · intro stream
    simp only [streamBytes_snoc, List.length_append, h.offsets stream]
    split
    · rfl
    · rfl
  · -- The counts of both streams grow by the bytes of the one written.
    have hcaptured := h.captured
    simp only
    cases event.stream with
    | stdout => simp; omega
    | stderr => simp; omega
  · rw [List.pairwise_append]
    refine ⟨h.ordered, List.pairwise_singleton _ _, ?_⟩
    intro earlier hearlier later hlater
    rw [List.mem_singleton.mp hlater]
    have hle := h.latest earlier hearlier
    omega
  · intro other hother
    rw [List.mem_append, List.mem_singleton] at hother
    rcases hother with hother | rfl
    · have hle := h.latest other hother
      simp only
      omega
    · exact Nat.le_refl _
  · simp only
    split
    · intro gap hgap
      have hle := h.bounded gap hgap
      exact ⟨hle.1, by omega⟩
    · exact hgrown.bounded
  · simp only
    split
    · exact h.rows.append (List.Sublist.refl _)
    · exact h.rows.trans (List.sublist_append_left _ _)
  · intro other hother
    rw [List.mem_append, List.mem_singleton] at hother
    simp only
    split
    · -- Stored, the event is a row; refused, it lies in the gap just added.
      rcases hother with hother | rfl
      · exact (h.accounted other hother).imp_left fun hrow => List.mem_append_left _ hrow
      · exact Or.inl (List.mem_append_right _ (List.mem_singleton_self _))
    · rcases hother with hother | rfl
      · exact (h.accounted other hother).imp_right (hgrown.covered _)
      · exact Or.inr hgrown.self

/-! ### Chunks -/

theorem flatten_pieces (bytes : Bytes) : (pieces bytes).flatten = bytes := by
  induction bytes using pieces.induct with
  | case1 =>
      rw [pieces, if_pos rfl]
      rfl
  | case2 bytes hbytes ih =>
      rw [pieces, if_neg hbytes, List.flatten_cons, ih, List.take_append_drop]

theorem deliveredPieces_prefix (attempts : List (Bytes × Write)) :
    deliveredPieces attempts <+: (attempts.map Prod.fst).flatten := by
  induction attempts with
  | nil => exact List.prefix_refl _
  | cons attempt rest ih =>
      unfold deliveredPieces
      split
      · exact List.nil_prefix
      · exact List.prefix_append_right_inj _ |>.mpr ih

/-- What is delivered of a chunk is its beginning. -/
theorem delivered_start (bytes : Bytes) (writes : Nat → Write) :
    deliveredPieces (attempts bytes writes) <+: bytes := by
  have hstart := deliveredPieces_prefix (attempts bytes writes)
  have hfst : (attempts bytes writes).map Prod.fst = pieces bytes := by
    unfold attempts
    refine List.ext_getElem (by simp) ?_
    intro index hleft hright
    rw [List.getElem_map, List.getElem_mapIdx]
  rw [hfst, flatten_pieces] at hstart
  exact hstart

/-- What a chunk leaves in the journal: what is delivered of it. -/
theorem outputPieces_spec (stream : Stream) :
    ∀ (attempts : List (Bytes × Write)) (j : Journal), j.Sound →
      (outputPieces stream attempts j).Sound ∧ ∀ other,
        streamBytes other (outputPieces stream attempts j).taken =
          streamBytes other j.taken ++ if other = stream then deliveredPieces attempts else [] := by
  intro attempts
  induction attempts with
  | nil =>
      intro j h
      refine ⟨h, fun other => ?_⟩
      unfold outputPieces deliveredPieces
      rw [ite_self, List.append_nil]
  | cons attempt rest ih =>
      rcases attempt with ⟨piece, write⟩
      intro j h
      unfold outputPieces deliveredPieces
      cases houtput : j.output write { sequence := j.lastSequence + 1, stream, data := piece } with
      | none =>
          -- A write that throws leaves the journal as it was.
          have hthrows : write.throws = true := by
            unfold Journal.output at houtput
            split at houtput
            · assumption
            · cases houtput
          refine ⟨h, fun other => ?_⟩
          rw [if_pos hthrows, ite_self, List.append_nil]
      | some next =>
          have hwrites : ¬write.throws = true := by
            intro hthrows
            unfold Journal.output at houtput
            rw [if_pos hthrows] at houtput
            cases houtput
          rcases h.output rfl houtput with ⟨hsound, htaken⟩
          refine ⟨(ih next hsound).1, fun other => ?_⟩
          rw [(ih next hsound).2 other, htaken, streamBytes_snoc, List.append_assoc,
            if_neg hwrites]
          split
          · rfl
          · rfl

theorem output_spec (stream : Stream) (bytes : Bytes) (writes : Nat → Write) {j : Journal}
    (h : j.Sound) :
    (output stream bytes writes j).Sound ∧ ∀ other,
      streamBytes other (output stream bytes writes j).taken =
        streamBytes other j.taken ++
          if other = stream then deliveredPieces (attempts bytes writes) else [] :=
  outputPieces_spec stream (attempts bytes writes) j h

/-! ### One recovery -/

variable {begun : Stream → Bytes} {files : Files} {ending : Ending} {j j' : Journal}

/-- A journal that began with some bytes of each stream and goes on by its counts. -/
structure Recovering (begun : Stream → Bytes) (files : Files) (j : Journal) : Prop where
  sound : j.Sound
  continued : ∀ stream, Continued (begun stream) (content files stream)
    (streamBytes stream j.taken)

/-- The bytes of the other stream are left alone. -/
def Aside (stream : Stream) (j j' : Journal) : Prop :=
  ∀ other, other ≠ stream → streamBytes other j'.taken = streamBytes other j.taken

/-- What is written of the next bytes of a stream continues it. -/
theorem Recovering.output (h : Recovering begun files j) (stream : Stream) (n : Nat)
    (writes : Nat → Write) :
    Recovering begun files (output stream (((content files stream).drop
        (j.outputOffset stream)).take n) writes j) ∧
      Aside stream j (CommandOutput.output stream (((content files stream).drop
        (j.outputOffset stream)).take n) writes j) := by
  have hspec := output_spec stream (((content files stream).drop (j.outputOffset stream)).take n)
    writes h.sound
  refine ⟨⟨hspec.1, ?_⟩, ?_⟩
  · intro other
    rw [hspec.2 other]
    by_cases hother : other = stream
    · subst hother
      rw [if_pos rfl]
      -- What is delivered are the first of the bytes after the journal's own.
      have hstart := delivered_start (((content files other).drop (j.outputOffset other)).take n)
        writes
      rw [List.prefix_iff_eq_take.mp hstart, List.take_take, h.sound.offsets other]
      exact (h.continued other).advance _
    · rw [if_neg hother, List.append_nil]
      exact h.continued other
  · intro other hother
    rw [hspec.2 other, if_neg hother, List.append_nil]

theorem recoverLoop_spec (stream : Stream) (retained : Nat) :
    ∀ (turns : List Turn) (j : Journal), Recovering begun files j →
      Recovering begun files (recoverLoop stream (content files stream) retained turns
          (j.outputOffset stream) j).1 ∧
        Aside stream j (recoverLoop stream (content files stream) retained turns
          (j.outputOffset stream) j).1 ∧
        ((recoverLoop stream (content files stream) retained turns
            (j.outputOffset stream) j).2 = true →
          retained ≤ (recoverLoop stream (content files stream) retained turns
            (j.outputOffset stream) j).1.outputOffset stream) := by
  intro turns
  induction turns with
  | nil =>
      intro j h
      exact ⟨h, fun _ _ => rfl, fun hdone => of_decide_eq_true hdone⟩
  | cons turn rest ih =>
      intro j h
      unfold recoverLoop
      by_cases hretained : retained ≤ j.outputOffset stream
      · rw [if_pos hretained]
        exact ⟨h, fun _ _ => rfl, fun _ => hretained⟩
      rw [if_neg hretained]
      simp only
      generalize hbytes : ((content files stream).drop (j.outputOffset stream)).take
        (min turn.size (min outputChunkBytes (retained - j.outputOffset stream))) = bytes
      by_cases hempty : bytes = []
      · rw [if_pos hempty]
        exact ⟨h, fun _ _ => rfl, nofun⟩
      rw [if_neg hempty]
      -- What is read next in the file is offered to the journal, whose write may throw.
      have hnext := h.output stream
        (min turn.size (min outputChunkBytes (retained - j.outputOffset stream)))
        (fun _ => turn.write)
      rw [hbytes] at hnext
      generalize CommandOutput.output stream bytes (fun _ => turn.write) j = next at hnext ⊢
      by_cases hoffset : next.outputOffset stream ≠ j.outputOffset stream + bytes.length
      · rw [if_pos hoffset]
        exact ⟨hnext.1, hnext.2, nofun⟩
      · rw [if_neg hoffset]
        rw [ne_eq, not_not] at hoffset
        rw [← hoffset]
        rcases ih next hnext.1 with ⟨hrecovering, haside, hdone⟩
        exact ⟨hrecovering, fun other hother => (haside other hother).trans (hnext.2 other hother),
          hdone⟩

/-- The supervisor tells the size of each file, or leaves it to the files. -/
def Sized (ending : Ending) (files : Files) : Prop :=
  ending.result.missingCounters = true ∨ ∀ stream,
    (ending.result.counters stream).map (·.retainedBytes) = some (content files stream).length

theorem Sized.retained (h : Sized ending files) (stream : Stream) :
    retained ending files stream = .refused ∨
      (retained ending files stream = .skipped ∧ (content files stream).length = 0) ∨
      retained ending files stream = .upTo (content files stream).length := by
  unfold CommandOutput.retained
  rcases h with hmissing | hsizes
  · rw [if_pos hmissing]
    unfold content
    cases files stream with
    | none => exact Or.inr (Or.inl ⟨rfl, rfl⟩)
    | some file =>
        simp only
        split
        · exact Or.inr (Or.inr rfl)
        · exact Or.inl rfl
  · split
    · unfold content
      cases files stream with
      | none => exact Or.inr (Or.inl ⟨rfl, rfl⟩)
      | some file =>
          simp only
          split
          · exact Or.inr (Or.inr rfl)
          · exact Or.inl rfl
    · have hsize := hsizes stream
      rw [Option.map_eq_some_iff] at hsize
      rcases hsize with ⟨counters, hcounters, hbytes⟩
      rw [hcounters]
      exact Or.inr (Or.inr (congrArg Retained.upTo hbytes))

theorem content_of_some {stream : Stream} {file : Bytes} (h : files stream = some file) :
    content files stream = file := by
  unfold content
  rw [h]
  rfl

/-- The rest of one file: the other stream is left alone, and where nothing is
    thrown the journal has as many bytes of the stream as the file. -/
theorem recoverStream_spec (h : Recovering begun files j) (ending : Ending) (stream : Stream)
    (total : Nat) :
    Recovering begun files (recoverStream ending files stream total j).1 ∧
      Aside stream j (recoverStream ending files stream total j).1 ∧
      (Sized ending files → (recoverStream ending files stream total j).2.isSome = true →
        (content files stream).length ≤
          (recoverStream ending files stream total j).1.outputOffset stream) := by
  have hsame : ∀ {p : Prop}, p → Recovering begun files j ∧ Aside stream j j ∧ p :=
    fun hp => ⟨h, fun _ _ => rfl, hp⟩
  unfold recoverStream
  cases hretained : retained ending files stream with
  | refused => exact hsame nofun
  | skipped =>
      refine hsame fun hsized _ => ?_
      rcases hsized.retained stream with hr | ⟨_, hempty⟩ | hr
      · rw [hretained] at hr
        cases hr
      · omega
      · rw [hretained] at hr
        cases hr
  | upTo bytes =>
      -- What is retained is the whole file, where the supervisor told its size.
      have hcount : Sized ending files → bytes = (content files stream).length := by
        intro hsized
        rcases hsized.retained stream with hr | ⟨hr, _⟩ | hr
        · rw [hretained] at hr
          cases hr
        · rw [hretained] at hr
          cases hr
        · rw [hretained] at hr
          exact Retained.upTo.inj hr
      simp only
      split
      · exact hsame nofun
      split
      · rename_i hoffset
        exact hsame fun hsized _ => hcount hsized ▸ hoffset
      split
      · exact hsame nofun
      rename_i file hfile
      split
      · exact hsame nofun
      have hloop := recoverLoop_spec stream bytes (ending.turns stream) j h
      rw [content_of_some hfile] at hloop
      split
      · rename_i next hnext
        rw [hnext] at hloop
        exact ⟨hloop.1, hloop.2.1, fun hsized _ => hcount hsized ▸ hloop.2.2 rfl⟩
      · rename_i next hnext
        rw [hnext] at hloop
        exact ⟨hloop.1, hloop.2.1, nofun⟩

/-- The rest of both files. -/
theorem recoverRetainedOutput_spec (h : Recovering begun files j) (ending : Ending) :
    Recovering begun files (recoverRetainedOutput ending files j).1 ∧
      (Sized ending files → (recoverRetainedOutput ending files j).2 = true → ∀ stream,
        (content files stream).length ≤
          (recoverRetainedOutput ending files j).1.outputOffset stream) := by
  unfold recoverRetainedOutput
  split
  · rename_i hnone
    refine ⟨h, fun hsized => ?_⟩
    rw [Bool.and_eq_true, Bool.and_eq_true, Option.isNone_iff_eq_none, Option.isNone_iff_eq_none,
      Bool.not_eq_true'] at hnone
    -- Without counters the files would have to tell their sizes.
    rcases hsized with hmissing | hsizes
    · rw [hmissing] at hnone
      cases hnone.2
    · have hsize := hsizes .stdout
      unfold CommandProcessResult.counters at hsize
      rw [hnone.1.1] at hsize
      cases hsize
  split
  · exact ⟨h, nofun⟩
  have hstdout := recoverStream_spec h ending .stdout 0
  split
  · rename_i next hnext
    rw [hnext] at hstdout
    exact ⟨hstdout.1, nofun⟩
  · rename_i next total hnext
    rw [hnext] at hstdout
    have hstderr := recoverStream_spec hstdout.1 ending .stderr total
    split
    · rename_i last hlast
      rw [hlast] at hstderr
      exact ⟨hstderr.1, nofun⟩
    · rename_i last total' hlast
      rw [hlast] at hstderr
      refine ⟨hstderr.1, fun hsized _ stream => ?_⟩
      cases stream with
      | stdout =>
          have hkept := hstderr.2.1 .stdout (by nofun)
          have hwhole := hstdout.2.2 hsized rfl
          rw [hstdout.1.sound.offsets] at hwhole
          rw [hstderr.1.sound.offsets, hkept]
          exact hwhole
      | stderr => exact hstderr.2.2 hsized rfl

/-- The gap at the end of incomplete output. -/
theorem Recovering.closed (h : Recovering begun files j) (result : CommandProcessResult) :
    Recovering begun files (j.closed result) ∧ (j.closed result).taken = j.taken := by
  unfold Journal.closed
  split
  · have hgrown := gapAtEnd_grown h.sound.bounded (Nat.le_succ j.lastSequence)
    refine ⟨⟨⟨h.sound.offsets, h.sound.captured, h.sound.ordered, ?_, hgrown.bounded, h.sound.rows,
      ?_⟩, h.continued⟩, rfl⟩
    · intro event hevent
      exact Nat.le_succ_of_le (h.sound.latest event hevent)
    · intro event hevent
      exact (h.sound.accounted event hevent).imp_right (hgrown.covered _)
  · exact ⟨h, rfl⟩

/-- The end of a command. Where it completes, the journal has as many bytes of
    each stream as the file, or as many as it had. -/
theorem finish_spec (h : Recovering begun files j) (ending : Ending) :
    Recovering begun files (finish ending files j).1 ∧
      (Sized ending files → (finish ending files j).2 = true → ∀ stream,
        (content files stream).length ≤ (streamBytes stream (finish ending files j).1.taken).length ↔
          ending.result.ownership = .quiescent ∨
            j.outputOffset stream = (content files stream).length) := by
  have hrecovered := recoverRetainedOutput_spec h ending
  unfold finish
  by_cases hquiescent : ending.result.ownership = .quiescent
  · rw [if_pos hquiescent]
    split
    · rename_i next hnext
      rw [hnext] at hrecovered
      exact ⟨hrecovered.1, nofun⟩
    · rename_i next hnext
      rw [hnext] at hrecovered
      by_cases hsaved : ending.saved = true
      · rw [if_pos hsaved]
        rcases hrecovered.1.closed ending.result with ⟨hclosed, htaken⟩
        refine ⟨hclosed, fun hsized _ stream => ?_⟩
        have hwhole := hrecovered.2 hsized rfl stream
        rw [hrecovered.1.sound.offsets] at hwhole
        simp only [htaken]
        exact iff_of_true hwhole (Or.inl hquiescent)
      · rw [if_neg hsaved]
        exact ⟨hrecovered.1, nofun⟩
  · rw [if_neg hquiescent]
    simp only
    by_cases hsaved : ending.saved = true
    · rw [if_pos hsaved]
      rcases h.closed ending.result with ⟨hclosed, htaken⟩
      refine ⟨hclosed, fun _ _ stream => ?_⟩
      have hle := (h.continued stream).le_whole
      simp only [htaken, h.sound.offsets stream]
      constructor
      · intro hwhole
        exact Or.inr (by omega)
      · rintro (hq | hwhole)
        · exact absurd hq hquiescent
        · omega
    · rw [if_neg hsaved]
      exact ⟨h, nofun⟩

/-! ### Runs -/

/-- What holds in every run. -/
structure System.Inv (sys : System) : Prop where
  recovering : Recovering sys.delivered sys.files sys.journal
  following : sys.live = true → ∀ stream,
    streamBytes stream sys.journal.taken = sys.delivered stream

theorem content_append (files : Files) (stream other : Stream) (bytes : Bytes) :
    content (append files stream bytes) other =
      content files other ++ if other = stream then bytes else [] := by
  by_cases hother : other = stream
  · subst hother
    rw [if_pos rfl]
    exact content_of_some (if_pos rfl)
  · rw [if_neg hother, List.append_nil]
    unfold content append
    rw [if_neg hother]

theorem System.inv_init : System.Inv {} :=
  ⟨⟨Journal.sound_empty, fun _ => Continued.refl (Nat.le_refl _)⟩, fun _ _ => rfl⟩

/-- What a step preserves. -/
theorem System.Inv.step {sys : System} (h : sys.Inv) (event : Event) : (sys.step event).Inv := by
  cases event with
  | native stream bytes writes =>
      by_cases hlive : sys.live = true
      · unfold System.step
        simp only [if_pos hlive]
        have hspec := output_spec stream bytes writes h.recovering.sound
        have hfollows : ∀ other, streamBytes other (output stream bytes writes sys.journal).taken =
            sys.delivered other ++
              if other = stream then deliveredPieces (attempts bytes writes) else [] := by
          intro other
          rw [hspec.2 other, h.following hlive other]
        refine ⟨⟨hspec.1, fun other => ?_⟩, fun _ => hfollows⟩
        simp only
        rw [hfollows other, content_append]
        refine Continued.refl ?_
        have hbegun := (h.recovering.continued other).begun_le
        have hwhole := (h.recovering.continued other).le_whole
        have hlength := (delivered_start bytes writes).length_le
        rw [List.length_append, List.length_append]
        split
        · omega
        · omega
      · unfold System.step
        simp only [if_neg hlive]
        refine ⟨⟨h.recovering.sound, fun other => ?_⟩, fun hlive' => absurd hlive' hlive⟩
        simp only
        rw [content_append]
        exact (h.recovering.continued other).grow _
  | restart => exact ⟨h.recovering, nofun⟩
  | finish ending => exact ⟨(finish_spec h.recovering ending).1, nofun⟩

theorem System.inv_run (events : List Event) : (Run.final System.step {} events).Inv :=
  Run.invariant System.step System.Inv (fun _ event h => h.step event) events {} System.inv_init

/-- A journal that has the streams: in the order of their numbers its events are
    the bytes of the files, each is in the journal or counted as a gap, and the
    count of captured bytes is theirs. -/
structure Recovered (files : Files) (j : Journal) : Prop where
  bytes : ∀ stream, streamBytes stream j.taken = content files stream
  ordered : j.taken.Pairwise fun earlier later => earlier.sequence < later.sequence
  rows : j.rows.Sublist j.taken
  accounted : ∀ event ∈ j.taken, event ∈ j.rows ∨ Covered j.gaps event.sequence
  captured : j.capturedBytes = (content files .stdout).length + (content files .stderr).length

/-- When the output of a command that ended is recovered: what was put into the
    journal live is the beginning of each stream, and the files were read again
    or there was nothing left to read. -/
theorem output_recovered_iff (events : List Event) (ending : Ending) {sys : System}
    (hsys : Run.final System.step {} events = sys) (hsized : Sized ending sys.files)
    (hdone : (finish ending sys.files sys.journal).2 = true) :
    Recovered sys.files (finish ending sys.files sys.journal).1 ↔ ∀ stream,
      sys.delivered stream <+: content sys.files stream ∧
        (ending.result.ownership = .quiescent ∨
          sys.journal.outputOffset stream = (content sys.files stream).length) := by
  have hinv : sys.Inv := hsys ▸ System.inv_run events
  rcases finish_spec hinv.recovering ending with ⟨hrecovering, hwhole⟩
  have hbytes : ∀ stream, streamBytes stream (finish ending sys.files sys.journal).1.taken =
      content sys.files stream ↔ sys.delivered stream <+: content sys.files stream ∧
        (ending.result.ownership = .quiescent ∨
          sys.journal.outputOffset stream = (content sys.files stream).length) := by
    intro stream
    rw [(hrecovering.continued stream).eq_iff, hwhole hsized hdone stream]
  constructor
  · intro h stream
    exact (hbytes stream).mp (h.bytes stream)
  · intro h
    have hall := fun stream => (hbytes stream).mpr (h stream)
    refine ⟨hall, hrecovering.sound.ordered, hrecovering.sound.rows, hrecovering.sound.accounted, ?_⟩
    rw [hrecovering.sound.captured, hrecovering.sound.offsets, hrecovering.sound.offsets,
      hall .stdout, hall .stderr]

namespace Sample

/-- An end after which `stdout` is as long as it says and `stderr` is empty. -/
def completed (bytes : Nat) : Ending where
  result :=
    { ownership := .quiescent
      reason := ofString "completed"
      outputComplete := some true
      stdout := some { bytes := bytes, retainedBytes := bytes }
      stderr := some { bytes := 0, retainedBytes := 0 } }
  regular := fun _ => true
  turns := fun _ => [{ size := outputChunkBytes, write := {} }]
  saved := true

/-- A write fails, and then the Node restarts. -/
def missed : List Event :=
  [.native .stdout [65] fun _ => {}, .native .stdout [66] fun _ => { throws := true }, .restart,
    .native .stdout [67] fun _ => {}]

/-- A write fails, and the next one does not. -/
def shifted : List Event :=
  [.native .stdout [65] fun _ => { throws := true }, .native .stdout [66] fun _ => {}]

theorem completed_sized {events : List Event} {bytes : Nat}
    (hstdout : (content (Run.final System.step {} events).files .stdout).length = bytes)
    (hstderr : (content (Run.final System.step {} events).files .stderr).length = 0) :
    Sized (completed bytes) (Run.final System.step {} events).files := by
  refine Or.inr fun stream => ?_
  cases stream with
  | stdout => exact congrArg some hstdout.symm
  | stderr => exact congrArg some hstderr.symm

end Sample

/-- A failed write that no write follows is recovered, with what came after the restart. -/
theorem output_recovered_iff_missed :
    Recovered (Run.final System.step {} Sample.missed).files
      (finish (Sample.completed 3) (Run.final System.step {} Sample.missed).files
        (Run.final System.step {} Sample.missed).journal).1 := by
  refine (output_recovered_iff Sample.missed (Sample.completed 3) rfl
    (Sample.completed_sized (by decide +kernel) (by decide +kernel)) (by decide +kernel)).mpr ?_
  intro stream
  refine ⟨?_, Or.inl rfl⟩
  cases stream with
  | stdout => decide +kernel
  | stderr => decide +kernel

/-- After a failed write that a successful one follows, the end completes with
    the second byte of the stream in the journal twice and the first not at all. -/
theorem output_recovered_twice :
    Sized (Sample.completed 2) (Run.final System.step {} Sample.shifted).files ∧
      (finish (Sample.completed 2) (Run.final System.step {} Sample.shifted).files
        (Run.final System.step {} Sample.shifted).journal).2 = true ∧
      content (Run.final System.step {} Sample.shifted).files .stdout = [65, 66] ∧
      (finish (Sample.completed 2) (Run.final System.step {} Sample.shifted).files
        (Run.final System.step {} Sample.shifted).journal).1.rows =
          [{ sequence := 1, stream := .stdout, data := [66] },
            { sequence := 2, stream := .stdout, data := [66] }] ∧
      ¬Recovered (Run.final System.step {} Sample.shifted).files
        (finish (Sample.completed 2) (Run.final System.step {} Sample.shifted).files
          (Run.final System.step {} Sample.shifted).journal).1 := by
  refine ⟨Sample.completed_sized (by decide +kernel) (by decide +kernel), by decide +kernel,
    by decide +kernel, by decide +kernel, ?_⟩
  intro h
  exact absurd (h.bytes .stdout) (by decide +kernel)

end CommandOutput

end CopilotFleet
