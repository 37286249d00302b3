import CopilotFleet.Host.ProjectionRetention

/-!
# The Updates of a Projection

What a browser needs to keep a page current. The updates of one generation are
numbered from one, without a gap, and writing them one after the other to what
the projection was built as gives its blocks, so the ones published after a
page was read continue from it.

A projection goes away in many ways: an event comes late, a write went around
the service, too much is retained, an archive is restored, an import is too
long to be pushed. In each of them the browsers are told, so a copy either
continues or is fetched again. A build that ends can not put a projection in
the place of one that was there, because no session has both.

## Main definitions

* `Publishes`: What an applied event leaves, and what was published of it.
* `Numbered`: What was published of a projection gives its blocks.
* `Tells`: Of a projection that is gone, the browsers were told.
* `Drawn`: The generation of a new projection was never drawn before.

## Theorems

* `apply_publishes`, `request_rebuilt`, `turn_rebuilt`: What one call leaves.
* `numbered_of_run`: Throughout a run, the updates are numbered.
* `updates_follow`: A page continues with the updates, or the browsers were told.
-/

namespace CopilotFleet

namespace Transcript

open Utf16

/-! ### What is published -/

section

variable {parseFleetControl : Text → Option FleetControl} {limits : TranscriptProjectionLimits}

/-- A projection that shows what another shows. -/
structure Carries (q p : Projection) : Prop where
  generation : q.generation = p.generation
  revision : q.revision = p.revision
  blocks : q.projector.blocks = p.projector.blocks

/-- A projection one published update later. -/
structure Advances (q p : Projection) (update : TranscriptUpdate) : Prop where
  generation : q.generation = p.generation
  revision : q.revision = p.revision + 1
  blocks : q.projector.blocks = Replica.write blockEdits p.projector.blocks update.change

theorem Carries.refl (p : Projection) : Carries p p := ⟨rfl, rfl, rfl⟩

theorem advance_quiet {p : Projection} {event : SessionEvent}
    (h : (p.advance parseFleetControl event).1 = none) :
    Carries (p.advance parseFleetControl event).2 p := by
  have hwrites := p.projector.apply_spec parseFleetControl event
  unfold Projection.advance at h ⊢
  simp only at h ⊢
  cases hchange : (p.projector.apply parseFleetControl event).1 with
  | none =>
      rw [hchange] at hwrites
      exact ⟨rfl, rfl, hwrites⟩
  | some change =>
      rw [hchange] at h
      cases h

theorem advance_published {p : Projection} {event : SessionEvent} {update : TranscriptUpdate}
    (h : (p.advance parseFleetControl event).1 = some update) :
    update.generation = p.generation ∧ update.revision = p.revision + 1 ∧
      Advances (p.advance parseFleetControl event).2 p update := by
  have hwrites := p.projector.apply_spec parseFleetControl event
  unfold Projection.advance at h ⊢
  simp only at h ⊢
  cases hchange : (p.projector.apply parseFleetControl event).1 with
  | none =>
      rw [hchange] at h
      cases h
  | some change =>
      rw [hchange] at h hwrites
      simp only [Option.some.injEq] at h
      rw [← h]
      exact ⟨rfl, rfl, rfl, rfl, hwrites.2⟩

/-- What the projections that are left show, and what was published of them. -/
inductive Publishes (t next : TranscriptProjections) : Option TranscriptUpdate → Prop
  | quiet (hready : ∀ id q, next.ready.get id = some q →
      ∃ p, t.ready.get id = some p ∧ Carries q.projection p.projection) : Publishes t next none
  | update (sessionId : Text) (p : ReadyProjection) (update : TranscriptUpdate)
      (hold : t.ready.get sessionId = some p)
      (hgeneration : update.generation = p.projection.generation)
      (hrevision : update.revision = p.projection.revision + 1)
      (hself : ∀ q, next.ready.get sessionId = some q →
        Advances q.projection p.projection update)
      (hothers : ∀ id, id ≠ sessionId → ∀ q, next.ready.get id = some q →
        t.ready.get id = some q) : Publishes t next (some update)

/-- An event that is applied is published or shows nowhere. -/
theorem apply_publishes (t : TranscriptProjections) (event : SessionEvent) :
    Publishes t (t.apply parseFleetControl limits event).2
      (t.apply parseFleetControl limits event).1 := by
  have hsame : Publishes t t none := .quiet fun id q hq => ⟨q, hq, .refl _⟩
  unfold TranscriptProjections.apply
  cases hbuild : t.builds.get event.sessionId with
  | some build =>
      simp only
      split
      · exact .quiet fun id q hq => ⟨q, hq, .refl _⟩
      · exact hsame
  | none =>
      simp only
      cases hready : t.ready.get event.sessionId with
      | none => exact hsame
      | some p =>
          simp only
          by_cases horder : event.sequence < p.maxSequence
          · -- What is late is only counted, before the projection may be dropped.
            have hcounted : Publishes t { t with
                ready := t.ready.set event.sessionId { p with writes := p.writes + 1 } } none := by
              refine .quiet fun id q hq => ?_
              rcases Table.get_set_some hq with ⟨rfl, rfl⟩ | ⟨_, hq⟩
              · exact ⟨p, hready, .refl _⟩
              · exact ⟨q, hq, .refl _⟩
            rw [if_pos horder]
            split
            · rcases hcounted with ⟨hcounted⟩
              exact .quiet fun id q hq =>
                hcounted id q ((TranscriptProjections.invalidate_less _ _).ready id q hq)
            · exact hcounted
          · rw [if_neg horder]
            rcases advance_cases parseFleetControl limits t p event with
              ⟨hupdate, more, q, hless, hmore, _, hprojection, _, _⟩
            -- Of this session, what is ready is the advanced projection, if it was not evicted at
            -- once.
            have hself : ∀ r, (t.advance parseFleetControl limits p event).2.ready.get
                event.sessionId = some r →
                  r.projection = (p.projection.advance parseFleetControl event).2 := by
              intro r hr
              have hr := hless.ready _ r hr
              rw [hmore, Table.get_set_self, Option.some.injEq] at hr
              rw [← hr, hprojection]
            have hothers : ∀ id, id ≠ event.sessionId → ∀ r,
                (t.advance parseFleetControl limits p event).2.ready.get id = some r →
                  t.ready.get id = some r := by
              intro id hid r hr
              have hr := hless.ready _ r hr
              rw [hmore, Table.get_set_ne _ _ hid] at hr
              exact hr
            rw [hupdate]
            cases hadvanced : (p.projection.advance parseFleetControl event).1 with
            | none =>
                refine .quiet fun id r hr => ?_
                by_cases hid : id = event.sessionId
                · subst hid
                  rw [hself r hr]
                  exact ⟨p, hready, advance_quiet hadvanced⟩
                · exact ⟨r, hothers id hid r hr, .refl _⟩
            | some update =>
                rcases advance_published hadvanced with ⟨hgeneration, hrevision, hadvances⟩
                refine .update event.sessionId p update hready hgeneration hrevision
                  (fun r hr => ?_) hothers
                rw [hself r hr]
                exact hadvances

/-- Projections that show what they showed, but for one session's new one. -/
def Rebuilt (t next : TranscriptProjections) (sessionId generation : Text) : Prop :=
  ∀ id q, next.ready.get id = some q →
    (∃ p, t.ready.get id = some p ∧ Carries q.projection p.projection) ∨
      (id = sessionId ∧ q.projection.generation = generation ∧ q.projection.revision = 0)

theorem Rebuilt.of_less {t more next : TranscriptProjections} {sessionId generation : Text}
    (h : Rebuilt more next sessionId generation) (hless : TranscriptProjections.Less more t) :
    Rebuilt t next sessionId generation := by
  intro id q hq
  rcases h id q hq with ⟨p, hp, hcarries⟩ | hnew
  · exact .inl ⟨p, hless.ready id p hp, hcarries⟩
  · exact .inr hnew

theorem finish_rebuilt (t : TranscriptProjections) (store : EventStore)
    (sessionId generation : Text) (build : Build) :
    Rebuilt t (t.finish limits store sessionId generation build) sessionId generation := by
  intro id q hq
  unfold TranscriptProjections.finish at hq
  have hq := (TranscriptProjections.evict_less _ _ _).ready id q hq
  rcases Table.get_set_some hq with ⟨hid, rfl⟩ | ⟨_, hq⟩
  · exact .inr ⟨hid, rfl, rfl⟩
  · exact .inl ⟨q, hq, .refl _⟩

theorem turn_rebuilt (t : TranscriptProjections) (store : EventStore)
    (sessionId generation : Text) (build : Build) :
    Rebuilt t (t.turn parseFleetControl limits store sessionId generation build) sessionId
      generation := by
  have hyielded : ∀ next, Rebuilt t { t with builds := t.builds.set sessionId next } sessionId
      generation := fun _ id q hq => .inl ⟨q, hq, .refl _⟩
  unfold TranscriptProjections.turn
  simp only
  split
  · exact hyielded _
  · split
    · split
      · exact hyielded _
      · exact finish_rebuilt t store sessionId generation _
    · exact finish_rebuilt t store sessionId generation _

theorem request_rebuilt (t : TranscriptProjections) (store : EventStore)
    (sessionId generation : Text) :
    Rebuilt t (t.request parseFleetControl limits store sessionId generation) sessionId
      generation := by
  have hsame : Rebuilt t t sessionId generation := fun id q hq => .inl ⟨q, hq, .refl _⟩
  unfold TranscriptProjections.request
  cases hready : t.ready.get sessionId with
  | some p =>
      simp only
      by_cases hcount : store.eventWrites sessionId = p.writes
      · rw [if_pos hcount]
        refine fun id q hq => .inl ?_
        rcases Table.get_set_some hq with ⟨rfl, rfl⟩ | ⟨_, hq⟩
        · exact ⟨p, hready, .refl _⟩
        · exact ⟨q, hq, .refl _⟩
      · rw [if_neg hcount]
        refine Rebuilt.of_less ?_ (t.invalidate_less sessionId)
        split
        · exact fun id q hq => .inl ⟨q, hq, .refl _⟩
        · exact turn_rebuilt _ store sessionId generation _
  | none =>
      simp only
      split
      · exact hsame
      · exact turn_rebuilt t store sessionId generation _

end

/-! ### The updates of a generation -/

/-- What was published of a generation. -/
def HostTranscripts.publishedOf (s : HostTranscripts) (generation : Text) :
    List TranscriptUpdate :=
  s.published.filter fun update => update.generation = generation

/-- The updates of a projection's generation are numbered without a gap, and make its blocks. -/
structure Replays (s : HostTranscripts) (p : Projection) : Prop where
  revisions : (s.publishedOf p.generation).map TranscriptUpdate.revision =
    List.range' 1 p.revision
  blocks : ∃ base, s.bases.get p.generation = some base ∧
    p.projector.blocks = ((s.publishedOf p.generation).map TranscriptUpdate.change).foldl
      (Replica.write blockEdits) base

/-- What was published of a projection gives its blocks, and no two share a generation. -/
structure Numbered (s : HostTranscripts) : Prop where
  replays : ∀ id p, s.projections.ready.get id = some p → Replays s p.projection
  apart : ∀ id p other q, s.projections.ready.get id = some p →
    s.projections.ready.get other = some q →
      p.projection.generation = q.projection.generation → id = other
  known : ∀ update ∈ s.published, s.bases.get update.generation ≠ none

section

variable {s : HostTranscripts}

theorem Replays.carried {p q : Projection} (h : Replays s p) (hcarries : Carries q p) :
    Replays s q := by
  refine ⟨?_, ?_⟩
  · rw [hcarries.generation, hcarries.revision]
    exact h.revisions
  · rw [hcarries.generation, hcarries.blocks]
    exact h.blocks

theorem numbered_empty : Numbered .empty where
  replays id p hp := by cases hp
  apart id p other q hp := by cases hp
  known update hupdate := absurd hupdate List.not_mem_nil

/-- The next update of a generation is the only one that is added to it. -/
theorem publishedOf_snoc (s : HostTranscripts) (projections : TranscriptProjections)
    (update : TranscriptUpdate) (generation : Text) :
    HostTranscripts.publishedOf
        { s with projections, published := s.published ++ [update] } generation =
      s.publishedOf generation ++ if update.generation = generation then [update] else [] := by
  unfold HostTranscripts.publishedOf
  rw [List.filter_append]
  by_cases hgeneration : update.generation = generation
  · rw [if_pos hgeneration, List.filter_cons_of_pos (by simpa using hgeneration)]
    rfl
  · rw [if_neg hgeneration, List.filter_cons_of_neg (by simpa using hgeneration)]
    rfl

theorem Numbered.published (h : Numbered s) {projections : TranscriptProjections}
    {update : Option TranscriptUpdate} (hpublishes : Publishes s.projections projections update) :
    Numbered { s with projections, published := s.published ++ update.toList } := by
  cases hpublishes with
  | quiet hready =>
      rw [Option.toList_none, List.append_nil]
      refine ⟨fun id q hq => ?_, fun id q other r hq hr hgeneration => ?_, h.known⟩
      · rcases hready id q hq with ⟨p, hp, hcarries⟩
        have hold := (h.replays id p hp).carried hcarries
        exact ⟨hold.revisions, hold.blocks⟩
      · rcases hready id q hq with ⟨p, hp, hcarries⟩
        rcases hready other r hr with ⟨p', hp', hcarries'⟩
        rw [hcarries.generation, hcarries'.generation] at hgeneration
        exact h.apart id p other p' hp hp' hgeneration
  | update sessionId p update hold hgeneration hrevision hself hothers =>
      rw [Option.toList_some]
      -- Every projection that is left has the generation it had.
      have hkept : ∀ id q, projections.ready.get id = some q → ∃ p, s.projections.ready.get id =
          some p ∧ q.projection.generation = p.projection.generation := by
        intro id q hq
        by_cases hid : id = sessionId
        · subst hid
          exact ⟨p, hold, (hself q hq).generation⟩
        · exact ⟨q, hothers id hid q hq, rfl⟩
      refine ⟨fun id q hq => ?_, fun id q other r hq hr hsame => ?_, fun u hu => ?_⟩
      · by_cases hid : id = sessionId
        · subst hid
          have hadvances := hself q hq
          have hreplays := h.replays id p hold
          have hmine : update.generation = q.projection.generation :=
            hgeneration.trans hadvances.generation.symm
          refine ⟨?_, ?_⟩
          · rw [publishedOf_snoc, if_pos hmine, hadvances.generation, List.map_append,
              hreplays.revisions, hadvances.revision, List.range'_concat, List.map_singleton,
              hrevision, Nat.one_mul, Nat.add_comm 1]
          · rcases hreplays.blocks with ⟨base, hbase, hblocks⟩
            refine ⟨base, ?_, ?_⟩
            · rw [hadvances.generation]
              exact hbase
            · rw [publishedOf_snoc, if_pos hmine, hadvances.generation, List.map_append,
                List.foldl_append, ← hblocks, hadvances.blocks]
              rfl
        · have hq := hothers id hid q hq
          have hne : update.generation ≠ q.projection.generation := fun hsame =>
            hid (h.apart id q sessionId p hq hold (hsame.symm.trans hgeneration))
          have hreplays := h.replays id q hq
          refine ⟨?_, ?_⟩
          · rw [publishedOf_snoc, if_neg hne, List.append_nil]
            exact hreplays.revisions
          · rw [publishedOf_snoc, if_neg hne, List.append_nil]
            exact hreplays.blocks
      · rcases hkept id q hq with ⟨p, hp, hgeneration⟩
        rcases hkept other r hr with ⟨p', hp', hgeneration'⟩
        rw [hgeneration, hgeneration'] at hsame
        exact h.apart id p other p' hp hp' hsame
      · rcases List.mem_append.mp hu with hu | hu
        · exact h.known u hu
        · rw [List.mem_singleton.mp hu, hgeneration]
          rcases (h.replays sessionId p hold).blocks with ⟨base, hbase, _⟩
          simp [hbase]

/-- Nothing is published of a generation that was never drawn. -/
theorem Numbered.unseen (h : Numbered s) {generation : Text}
    (hnew : s.bases.get generation = none) : s.publishedOf generation = [] := by
  refine List.filter_eq_nil_iff.mpr fun update hupdate hsame => ?_
  refine h.known update hupdate ?_
  rw [of_decide_eq_true hsame]
  exact hnew

/-- A projection that starts does so from a base of its own. -/
theorem Numbered.rebuilt (h : Numbered s) {projections : TranscriptProjections}
    {sessionId generation : Text} (hnew : s.bases.get generation = none)
    (hrebuilt : Rebuilt s.projections projections sessionId generation) :
    Numbered (s.noted sessionId generation projections) := by
  -- The projections that were there have generations that were drawn.
  have hdrawn : ∀ id p, s.projections.ready.get id = some p →
      p.projection.generation ≠ generation := by
    intro id p hp hsame
    rcases (h.replays id p hp).blocks with ⟨base, hbase, _⟩
    rw [hsame, hnew] at hbase
    cases hbase
  have hfresh : ∀ id q, projections.ready.get id = some q →
      q.projection.generation = generation → id = sessionId ∧ q.projection.revision = 0 := by
    intro id q hq hsame
    rcases hrebuilt id q hq with ⟨p, hp, hcarries⟩ | ⟨hid, _, hrevision⟩
    · exact absurd (hcarries.generation.symm.trans hsame) (hdrawn id p hp)
    · exact ⟨hid, hrevision⟩
  have hcarried : ∀ id q, projections.ready.get id = some q →
      q.projection.generation ≠ generation →
        ∃ p, s.projections.ready.get id = some p ∧ Carries q.projection p.projection := by
    intro id q hq hne
    rcases hrebuilt id q hq with hold | ⟨_, hsame, _⟩
    · exact hold
    · exact absurd hsame hne
  have hapart : ∀ id q other r, projections.ready.get id = some q →
      projections.ready.get other = some r →
        q.projection.generation = r.projection.generation → id = other := by
    intro id q other r hq hr hsame
    by_cases hgeneration : q.projection.generation = generation
    · rw [(hfresh id q hq hgeneration).1, (hfresh other r hr (hsame ▸ hgeneration)).1]
    · rcases hcarried id q hq hgeneration with ⟨p, hp, hcarries⟩
      rcases hcarried other r hr (hsame ▸ hgeneration) with ⟨p', hp', hcarries'⟩
      rw [hcarries.generation, hcarries'.generation] at hsame
      exact h.apart id p other p' hp hp' hsame
  unfold HostTranscripts.noted
  cases hself : projections.ready.get sessionId with
  | none =>
      refine ⟨fun id q hq => ?_, hapart, h.known⟩
      have hne : q.projection.generation ≠ generation := by
        intro hsame
        rw [(hfresh id q hq hsame).1, hself] at hq
        cases hq
      rcases hcarried id q hq hne with ⟨p, hp, hcarries⟩
      have hold := (h.replays id p hp).carried hcarries
      exact ⟨hold.revisions, hold.blocks⟩
  | some q =>
      simp only
      by_cases hgeneration : q.projection.generation = generation
      · rw [if_pos hgeneration]
        have hbase : ∀ other, other ≠ generation →
            (s.bases.set generation q.projection.projector.blocks).get other =
              s.bases.get other := fun other hne => Table.get_set_ne _ _ hne
        refine ⟨fun id r hr => ?_, hapart, fun update hupdate => ?_⟩
        · by_cases hsame : r.projection.generation = generation
          · have hfirst := hfresh id r hr hsame
            rw [hfirst.1, hself, Option.some.injEq] at hr
            subst hr
            have hnone := h.unseen hnew
            refine ⟨?_, q.projection.projector.blocks, ?_, ?_⟩
            · rw [hsame, hfirst.2]
              exact congrArg (List.map TranscriptUpdate.revision) hnone
            · rw [hsame]
              exact Table.get_set_self _ _ _
            · rw [hsame]
              change _ = List.foldl _ _ (List.map _ (s.publishedOf generation))
              rw [hnone]
              rfl
          · rcases hcarried id r hr hsame with ⟨p, hp, hcarries⟩
            have hold := (h.replays id p hp).carried hcarries
            refine ⟨hold.revisions, ?_⟩
            rcases hold.blocks with ⟨base, hget, hblocks⟩
            exact ⟨base, (hbase _ hsame).trans hget, hblocks⟩
        · change (s.bases.set generation _).get update.generation ≠ none
          by_cases hsame : update.generation = generation
          · rw [hsame, Table.get_set_self]
            simp
          · rw [hbase _ hsame]
            exact h.known update hupdate
      · rw [if_neg hgeneration]
        refine ⟨fun id r hr => ?_, hapart, h.known⟩
        have hne : r.projection.generation ≠ generation := by
          intro hsame
          rw [(hfresh id r hr hsame).1, hself, Option.some.injEq] at hr
          subst hr
          exact hgeneration hsame
        rcases hcarried id r hr hne with ⟨p, hp, hcarries⟩
        have hold := (h.replays id p hp).carried hcarries
        exact ⟨hold.revisions, hold.blocks⟩

/-- Projections that are dropped take nothing from the rest. -/
theorem Numbered.less (h : Numbered s) {projections : TranscriptProjections} (store : EventStore)
    (hless : ∀ id p, projections.ready.get id = some p → s.projections.ready.get id = some p) :
    Numbered { s with store, projections } := by
  refine ⟨fun id p hp => ?_, fun id p other q hp hq => ?_, h.known⟩
  · have hold := h.replays id p (hless id p hp)
    exact ⟨hold.revisions, hold.blocks⟩
  · exact h.apart id p other q (hless id p hp) (hless other q hq)

theorem Numbered.applied {parseFleetControl : Text → Option FleetControl}
    {limits : TranscriptProjectionLimits} (h : Numbered s) (event : SessionEvent) :
    Numbered (s.applied parseFleetControl limits event) :=
  h.published (apply_publishes s.projections event)

theorem Numbered.foldl_applied {parseFleetControl : Text → Option FleetControl}
    {limits : TranscriptProjectionLimits} (h : Numbered s) (events : List SessionEvent) :
    Numbered (events.foldl (HostTranscripts.applied parseFleetControl limits) s) := by
  induction events generalizing s with
  | nil => exact h
  | cons event rest ih => exact ih (h.applied event)

end

namespace TranscriptRuns

open HostTranscripts

variable {parseFleetControl : Text → Option FleetControl} {limits : TranscriptProjectionLimits}

/-- The generation of a new projection was never drawn before. -/
def Drawn (s : HostTranscripts) : Op → Prop
  | .request _ generation => s.bases.get generation = none
  | .turn _ generation => s.bases.get generation = none
  | _ => True

instance (s : HostTranscripts) : ∀ op, Decidable (Drawn s op)
  | .request _ generation => inferInstanceAs (Decidable (s.bases.get generation = none))
  | .turn _ generation => inferInstanceAs (Decidable (s.bases.get generation = none))
  | .store .. => .isTrue trivial
  | .bypass .. => .isTrue trivial
  | .importNativeSession .. => .isTrue trivial
  | .delete .. => .isTrue trivial
  | .restore .. => .isTrue trivial

theorem numbered_step (s : HostTranscripts) (op : Op) (h : Numbered s) (hok : Drawn s op) :
    Numbered (step parseFleetControl limits s op) := by
  cases op with
  | store event positive =>
      change Numbered (s.stored parseFleetControl limits event positive)
      unfold stored
      have hnext := h.less (s.store.appendEvent event positive).1 fun _ _ hp => hp
      simp only
      split
      · exact hnext.applied event
      · exact hnext
  | bypass event positive => exact h.less _ fun _ _ hp => hp
  | importNativeSession sessionId events =>
      change Numbered (s.imported parseFleetControl limits sessionId events)
      unfold imported
      simp only
      split
      · exact h.less _ (s.projections.invalidate_less sessionId).ready
      · exact (h.less _ fun _ _ hp => hp).foldl_applied _
  | delete sessionId => exact h.less _ fun _ _ hp => hp
  | restore store =>
      refine h.less store fun id p hp => ?_
      rw [s.projections.clear_ready id] at hp
      cases hp
  | request sessionId generation =>
      exact h.rebuilt hok (request_rebuilt s.projections s.store sessionId generation)
  | turn sessionId generation =>
      rcases step_turn s sessionId generation with ⟨_, hsame⟩ | ⟨build, _, hturn⟩
      · rw [hsame]
        exact h
      · rw [hturn]
        exact h.rebuilt hok (turn_rebuilt s.projections s.store sessionId generation build)

theorem numbered_of_run (ops : List Op)
    (hok : Run.Admits (step parseFleetControl limits) Drawn .empty ops) :
    Numbered (Run.final (step parseFleetControl limits) .empty ops) :=
  Run.invariant_of_admits (step parseFleetControl limits) Drawn Numbered numbered_step ops .empty
    numbered_empty hok

end TranscriptRuns

/-! ### What browsers are told -/

/-- Each projection that was there has a successor of its generation, or the browsers were
    told. -/
def Tells (t next : TranscriptProjections) : Prop :=
  ∃ told, next.resets = t.resets ++ told ∧ ∀ id p, t.ready.get id = some p → id ∉ told →
    ∃ q, next.ready.get id = some q ∧ q.projection.generation = p.projection.generation

section

variable {parseFleetControl : Text → Option FleetControl} {limits : TranscriptProjectionLimits}
variable {t next : TranscriptProjections}

theorem Tells.of_kept (hresets : next.resets = t.resets)
    (hkept : ∀ id p, t.ready.get id = some p →
      ∃ q, next.ready.get id = some q ∧ q.projection.generation = p.projection.generation) :
    Tells t next :=
  ⟨[], by rw [hresets, List.append_nil], fun id p hp _ => hkept id p hp⟩

theorem Tells.refl (t : TranscriptProjections) : Tells t t :=
  .of_kept rfl fun _ p hp => ⟨p, hp, rfl⟩

theorem Tells.trans {last : TranscriptProjections} (h : Tells t next) (h' : Tells next last) :
    Tells t last := by
  rcases h with ⟨told, hresets, hkept⟩
  rcases h' with ⟨told', hresets', hkept'⟩
  refine ⟨told ++ told', by rw [hresets', hresets, List.append_assoc], fun id p hp hid => ?_⟩
  rw [List.mem_append, not_or] at hid
  rcases hkept id p hp hid.1 with ⟨q, hq, hgeneration⟩
  rcases hkept' id q hq hid.2 with ⟨r, hr, hgeneration'⟩
  exact ⟨r, hr, hgeneration'.trans hgeneration⟩

/-- One projection is written, of the generation that was there, if there was one. -/
theorem Tells.written {sessionId : Text} {q : ReadyProjection}
    (hresets : next.resets = t.resets) (hready : next.ready = t.ready.set sessionId q)
    (hsame : ∀ p, t.ready.get sessionId = some p →
      q.projection.generation = p.projection.generation) : Tells t next := by
  refine .of_kept hresets fun id p hp => ?_
  rw [hready]
  by_cases hid : id = sessionId
  · rw [hid] at hp ⊢
    exact ⟨q, Table.get_set_self _ _ _, hsame p hp⟩
  · rw [Table.get_set_ne _ _ hid]
    exact ⟨p, hp, rfl⟩

theorem invalidate_tells (t : TranscriptProjections) (sessionId : Text) :
    Tells t (t.invalidate sessionId) := by
  unfold TranscriptProjections.invalidate
  cases t.ready.get sessionId with
  | none => exact .refl t
  | some p =>
      refine ⟨[sessionId], rfl, fun id q hq hid => ⟨q, ?_, rfl⟩⟩
      rw [List.mem_singleton] at hid
      exact (Table.get_erase_ne _ hid).trans hq

theorem evict_tells (t : TranscriptProjections) (keep : Text) :
    Tells t (t.evict limits keep) := by
  have hrounds : ∀ (rounds : Nat) (t : TranscriptProjections),
      Tells t (TranscriptProjections.evictRounds limits keep rounds t) := by
    intro rounds
    induction rounds with
    | zero => exact Tells.refl
    | succ rounds ih =>
        intro t
        unfold TranscriptProjections.evictRounds
        split
        · exact .refl t
        · split
          · exact .refl t
          · exact (invalidate_tells t _).trans (ih _)
  exact hrounds _ t

theorem advance_generation (p : Projection) (event : SessionEvent) :
    (p.advance parseFleetControl event).2.generation = p.generation := by
  unfold Projection.advance
  simp only
  cases (p.projector.apply parseFleetControl event).1 with
  | none => rfl
  | some change => rfl

theorem advance_tells {p : ReadyProjection} {event : SessionEvent}
    (hready : t.ready.get event.sessionId = some p) :
    Tells t (t.advance parseFleetControl limits p event).2 := by
  have hsame : ∀ p', t.ready.get event.sessionId = some p' →
      (p.projection.advance parseFleetControl event).2.generation =
        p'.projection.generation := by
    intro p' hp'
    rw [hready, Option.some.injEq] at hp'
    rw [advance_generation, hp']
  unfold TranscriptProjections.advance
  simp only
  cases (p.projection.advance parseFleetControl event).1 with
  | none => exact .written rfl rfl hsame
  | some update =>
      simp only
      refine Tells.trans ?_ (evict_tells _ event.sessionId)
      exact .written rfl rfl hsame

theorem apply_tells (t : TranscriptProjections) (event : SessionEvent) :
    Tells t (t.apply parseFleetControl limits event).2 := by
  unfold TranscriptProjections.apply
  cases t.builds.get event.sessionId with
  | some build =>
      simp only
      split
      · exact .of_kept rfl fun _ p hp => ⟨p, hp, rfl⟩
      · exact .refl t
  | none =>
      simp only
      cases hready : t.ready.get event.sessionId with
      | none => exact .refl t
      | some p =>
          simp only
          have hcounted : Tells t { t with
              ready := t.ready.set event.sessionId { p with writes := p.writes + 1 } } := by
            refine .written rfl rfl fun p' hp' => ?_
            rw [hready, Option.some.injEq] at hp'
            rw [hp']
          split
          · split
            · exact hcounted.trans (invalidate_tells _ event.sessionId)
            · exact hcounted
          · exact advance_tells hready

/-- A build that ends has no projection to put away. -/
theorem turn_tells {sessionId : Text} (hready : t.ready.get sessionId = none) (store : EventStore)
    (generation : Text) (build : Build) :
    Tells t (t.turn parseFleetControl limits store sessionId generation build) := by
  have hyielded : ∀ next, Tells t { t with builds := t.builds.set sessionId next } := fun _ =>
    .of_kept rfl fun _ p hp => ⟨p, hp, rfl⟩
  have hfinished : ∀ build, Tells t (t.finish limits store sessionId generation build) := by
    intro build
    unfold TranscriptProjections.finish
    refine Tells.trans ?_ (evict_tells _ sessionId)
    refine .written rfl rfl fun p hp => ?_
    rw [hready] at hp
    cases hp
  unfold TranscriptProjections.turn
  simp only
  split
  · exact hyielded _
  · split
    · split
      · exact hyielded _
      · exact hfinished _
    · exact hfinished _

theorem request_tells (t : TranscriptProjections) (store : EventStore)
    (sessionId generation : Text) :
    Tells t (t.request parseFleetControl limits store sessionId generation) := by
  unfold TranscriptProjections.request
  cases hready : t.ready.get sessionId with
  | some p =>
      simp only
      split
      · refine .written rfl rfl fun p' hp' => ?_
        rw [hready, Option.some.injEq] at hp'
        rw [hp']
      · split
        · exact invalidate_tells t sessionId
        · exact (invalidate_tells t sessionId).trans
            (turn_tells (t.invalidate_get sessionId) store generation _)
  | none =>
      simp only
      split
      · exact .refl t
      · exact turn_tells hready store generation _

theorem clear_tells (t : TranscriptProjections) : Tells t t.clear := by
  have hdropped : ∀ (ids : List Text) (t : TranscriptProjections),
      Tells t (ids.foldl TranscriptProjections.invalidate t) := by
    intro ids
    induction ids with
    | nil => exact Tells.refl
    | cons id rest ih => exact fun t => (invalidate_tells t id).trans (ih _)
  exact (hdropped (t.ready.entries.map Prod.fst) t).trans
    (.of_kept rfl fun _ p hp => ⟨p, hp, rfl⟩)

end

/-! ### From one state to a later one -/

namespace TranscriptRuns

open HostTranscripts

variable {parseFleetControl : Text → Option FleetControl} {limits : TranscriptProjectionLimits}

/-- What was published stays so, what a generation was built as is never another, and the
    browsers are told of what is gone. -/
structure Later (s next : HostTranscripts) : Prop where
  published : s.published <+: next.published
  bases : ∀ generation base, s.bases.get generation = some base →
    next.bases.get generation = some base
  tells : Tells s.projections next.projections

theorem Later.trans {s next last : HostTranscripts} (h : Later s next) (h' : Later next last) :
    Later s last :=
  ⟨h.published.trans h'.published, fun g b hb => h'.bases g b (h.bases g b hb),
    h.tells.trans h'.tells⟩

theorem Later.of_tells {s : HostTranscripts} {store : EventStore}
    {projections : TranscriptProjections} {published : List TranscriptUpdate}
    (hpublished : s.published <+: published) (htells : Tells s.projections projections) :
    Later s { s with store, projections, published } :=
  ⟨hpublished, fun _ _ hb => hb, htells⟩

theorem Later.noted {s : HostTranscripts} {sessionId generation : Text}
    {projections : TranscriptProjections} (hnew : s.bases.get generation = none)
    (htells : Tells s.projections projections) :
    Later s (s.noted sessionId generation projections) := by
  have hkept : Later s { s with projections } := .of_tells (List.prefix_refl _) htells
  unfold HostTranscripts.noted
  split
  · split
    · refine ⟨List.prefix_refl _, fun g b hb => ?_, htells⟩
      have hne : g ≠ generation := by
        intro hg
        rw [hg, hnew] at hb
        cases hb
      exact (Table.get_set_ne _ _ hne).trans hb
    · exact hkept
  · exact hkept

theorem later_foldl (events : List SessionEvent) (s : HostTranscripts) :
    Later s (events.foldl (applied parseFleetControl limits) s) := by
  induction events generalizing s with
  | nil => exact .of_tells (List.prefix_refl _) (.refl _)
  | cons event rest ih =>
      refine Later.trans (.of_tells (List.prefix_append _ _) ?_) (ih _)
      exact apply_tells s.projections event

theorem later_step (s : HostTranscripts) (op : Op) (hcounted : Counted s.projections)
    (hok : Drawn s op) : Later s (step parseFleetControl limits s op) := by
  cases op with
  | store event positive =>
      change Later s (s.stored parseFleetControl limits event positive)
      unfold stored
      simp only
      split
      · exact .of_tells (List.prefix_append _ _) (apply_tells s.projections event)
      · exact .of_tells (List.prefix_refl _) (.refl _)
  | bypass event positive => exact .of_tells (List.prefix_refl _) (.refl _)
  | importNativeSession sessionId events =>
      change Later s (s.imported parseFleetControl limits sessionId events)
      unfold imported
      simp only
      split
      · exact .of_tells (List.prefix_refl _) (invalidate_tells s.projections sessionId)
      · exact Later.trans (.of_tells (List.prefix_refl _) (.refl _)) (later_foldl _ _)
  | delete sessionId => exact .of_tells (List.prefix_refl _) (.refl _)
  | restore store => exact .of_tells (List.prefix_refl _) (clear_tells s.projections)
  | request sessionId generation =>
      exact .noted hok (request_tells s.projections s.store sessionId generation)
  | turn sessionId generation =>
      rcases step_turn s sessionId generation with ⟨_, hsame⟩ | ⟨build, hbuild, hturn⟩
      · rw [hsame]
        exact .of_tells (List.prefix_refl _) (.refl _)
      · rw [hturn]
        refine .noted hok (turn_tells ?_ s.store generation build)
        rcases hcounted.apart sessionId with hnone | hnone
        · exact hnone
        · rw [hbuild] at hnone
          cases hnone

theorem later_of_run (s : HostTranscripts) (ops : List Op)
    (hretained : Retained limits s.projections)
    (hok : Run.Admits (step parseFleetControl limits) Drawn s ops) :
    Later s (Run.final (step parseFleetControl limits) s ops) := by
  refine (Run.invariant_of_admits (step parseFleetControl limits) Drawn
    (fun next => Later s next ∧ Retained limits next.projections) ?_ ops s
      ⟨.of_tells (List.prefix_refl _) (.refl _), hretained⟩ hok).1
  intro next op h hdrawn
  exact ⟨h.1.trans (later_step next op h.2.counted hdrawn), retained_step next op h.2⟩

/-- A projection and a later one of its generation: the updates in between are the next ones, and
    turn the blocks of the one into those of the other. -/
theorem replays_between {s next : HostTranscripts} {p q : Projection} (hlater : Later s next)
    (hp : Replays s p) (hq : Replays next q) (hgeneration : q.generation = p.generation) :
    ∃ updates, next.publishedOf p.generation = s.publishedOf p.generation ++ updates ∧
      updates.map TranscriptUpdate.revision = List.range' (p.revision + 1) updates.length ∧
      q.revision = p.revision + updates.length ∧
      q.projector.blocks = (updates.map TranscriptUpdate.change).foldl
        (Replica.write blockEdits) p.projector.blocks := by
  rcases hlater.published with ⟨more, hmore⟩
  have hsplit : next.publishedOf p.generation = s.publishedOf p.generation ++
      more.filter fun update => update.generation = p.generation := by
    unfold HostTranscripts.publishedOf
    rw [← hmore, List.filter_append]
  refine ⟨_, hsplit, ?_⟩
  have hbefore := hp.revisions
  have hafter := hq.revisions
  rw [hgeneration, hsplit, List.map_append, hbefore] at hafter
  have hlength := congrArg List.length hafter
  rw [List.length_append, List.length_map, List.length_range', List.length_range'] at hlength
  refine ⟨?_, by omega, ?_⟩
  · rw [← hlength, ← List.range'_append_1] at hafter
    rw [Nat.add_comm p.revision 1]
    exact List.append_cancel_left hafter
  · rcases hp.blocks with ⟨base, hbase, hblocks⟩
    rcases hq.blocks with ⟨base', hbase', hblocks'⟩
    rw [hgeneration, hlater.bases _ _ hbase, Option.some.injEq] at hbase'
    rw [hblocks', hgeneration, hsplit, List.map_append, List.foldl_append, ← hbase', ← hblocks]

/-- A page that was read continues with the updates published after it, or the browsers were told
    to fetch the session again. -/
theorem updates_follow (ops later : List Op) (sessionId : Text) (p : ReadyProjection)
    (hok : Run.Admits (step parseFleetControl limits) Drawn .empty (ops ++ later))
    (hready : (Run.final (step parseFleetControl limits) .empty ops).projections.ready.get
      sessionId = some p) :
    let s := Run.final (step parseFleetControl limits) .empty ops
    let next := Run.final (step parseFleetControl limits) .empty (ops ++ later)
    (∃ told, next.projections.resets = s.projections.resets ++ told ∧ sessionId ∈ told) ∨
    ∃ q updates, next.projections.ready.get sessionId = some q ∧
      q.projection.generation = p.projection.generation ∧
      next.publishedOf p.projection.generation =
        s.publishedOf p.projection.generation ++ updates ∧
      updates.map TranscriptUpdate.revision =
        List.range' (p.projection.revision + 1) updates.length ∧
      q.projection.revision = p.projection.revision + updates.length ∧
      q.projection.projector.blocks = (updates.map TranscriptUpdate.change).foldl
        (Replica.write blockEdits) p.projection.projector.blocks := by
  intro s next
  have hboth := (Run.admits_append _ _ _ _ _).mp hok
  have hlater : Later s next := by
    have h := later_of_run s later (retained_of_run ops) hboth.2
    rw [← Run.final_append] at h
    exact h
  rcases hlater.tells with ⟨told, hresets, hkept⟩
  by_cases htold : sessionId ∈ told
  · exact .inl ⟨told, hresets, htold⟩
  · rcases hkept sessionId p hready htold with ⟨q, hq, hgeneration⟩
    have hp := (numbered_of_run ops hboth.1).replays sessionId p hready
    have hqr := (numbered_of_run (ops ++ later) hok).replays sessionId q hq
    rcases replays_between hlater hp hqr hgeneration with ⟨updates, hupdates⟩
    exact .inr ⟨q, updates, hq, hgeneration, hupdates⟩

/-- A page is read, and then a third event is stored. -/
def exampleRead : List Op := exampleOps ++ [.turn (ofString "s") (ofString "g")]

def exampleLater : List Op := [.store (exampleText 3 "c") (by decide)]

theorem updates_follow_third : ∃ q,
    (Run.final (step (fun _ => none) exampleLimits) .empty
      (exampleRead ++ exampleLater)).projections.ready.get (ofString "s") = some q ∧
      q.projection.generation = ofString "g" := by
  have hsome : ((Run.final (step (fun _ => none) exampleLimits) .empty
      exampleRead).projections.ready.get
        (ofString "s")).isSome = true := by decide +kernel
  have hdrawn : ((Run.final (step (fun _ => none) exampleLimits) .empty
      exampleRead).projections.ready.get
        (ofString "s")).map (fun p => p.projection.generation) = some (ofString "g") := by
    decide +kernel
  rcases @updates_follow (fun _ => none) exampleLimits
    exampleRead exampleLater (ofString "s") (Option.get _ hsome)
    ⟨trivial, by decide +kernel, trivial, by decide +kernel, by decide +kernel, trivial, trivial⟩
    (Option.some_get hsome).symm with ⟨told, hresets, hmem⟩ | ⟨q, _, hq, hgeneration, _⟩
  · -- Nobody was told anything.
    have hnone : (Run.final (step (fun _ => none) exampleLimits) .empty
        (exampleRead ++ exampleLater)).projections.resets = [] := by decide +kernel
    rw [hnone] at hresets
    rw [(List.append_eq_nil_iff.mp hresets.symm).2] at hmem
    cases hmem
  · refine ⟨q, hq, hgeneration.trans ?_⟩
    rw [← Option.some_get hsome, Option.map_some, Option.some.injEq] at hdrawn
    exact hdrawn

end TranscriptRuns

end Transcript

end CopilotFleet
