import HmkitWorkspace.TransitionRuns
import Mathlib.Data.Set.Lattice
import Mathlib.Order.CompletePartialOrder
import Mathlib.Data.List.Perm.Basic

/-! # Footprints of events

A state seen through components. An event writes some of them and leaves the others alone;
what it emits, and what it leaves in a component, depend on the components it reads and on that
component alone. Events with disjoint footprints may be exchanged, and events that write
nothing others read may be left out. -/
namespace Footprints

open TransitionRuns

variable {σ ε ο ι : Type*}

structure Components (σ ι : Type*) where
  Value : ι → Type*
  get : (i : ι) → σ → Value i

structure Footprint (ι : Type*) where
  reads : Set ι
  writes : Set ι

def Agree (c : Components σ ι) (K : Set ι) (s t : σ) : Prop := ∀ i ∈ K, c.get i s = c.get i t

/-- States that no component tells apart. -/
abbrev Alike (c : Components σ ι) (s t : σ) : Prop := Agree c Set.univ s t

/-- The components make up the whole state. -/
def Extensional (c : Components σ ι) : Prop := ∀ s t, Alike c s t → s = t

structure HasFootprint (c : Components σ ι) (step : StepFunction σ ε ο) (e : ε)
    (F : Footprint ι) : Prop where
  frame : ∀ {s u out}, step s e = some (u, out) → ∀ i, i ∉ F.writes → c.get i u = c.get i s
  locality : ∀ {s s' u out}, Agree c F.reads s s' → step s e = some (u, out) →
    ∃ u', step s' e = some (u', out) ∧ ∀ i, c.get i s = c.get i s' → c.get i u = c.get i u'

structure Independent (F G : Footprint ι) : Prop where
  writes_reads : Disjoint F.writes G.reads
  reads_writes : Disjoint F.reads G.writes
  writes_writes : Disjoint F.writes G.writes

variable {c : Components σ ι} {step : StepFunction σ ε ο} {e e' : ε} {F G : Footprint ι}
  {K L : Set ι} {s s' t u v : σ} {out out' : List ο} {tr : List (Transition σ ε ο)}
  {es es' : List ε}

theorem Agree.symm (h : Agree c K s t) : Agree c K t s := fun i hi => (h i hi).symm

theorem Agree.trans (h : Agree c K s t) (h' : Agree c K t u) : Agree c K s u :=
  fun i hi => (h i hi).trans (h' i hi)

theorem Agree.mono (h : Agree c K s t) (smaller : L ⊆ K) : Agree c L s t :=
  fun i hi => h i (smaller hi)

theorem Independent.symm (h : Independent F G) : Independent G F :=
  ⟨h.reads_writes.symm, h.writes_reads.symm, h.writes_writes.symm⟩

/-- Of the components an event writes, what it leaves there has to be compared; the others
follow from the frame. -/
theorem HasFootprint.of_writes
    (frame : ∀ {s u out}, step s e = some (u, out) → ∀ i, i ∉ F.writes → c.get i u = c.get i s)
    (locality : ∀ {s s' u out}, Agree c F.reads s s' → step s e = some (u, out) →
      ∃ u', step s' e = some (u', out) ∧
        ∀ i ∈ F.writes, c.get i s = c.get i s' → c.get i u = c.get i u') :
    HasFootprint c step e F := by
  refine ⟨frame, ?_⟩
  intro s s' u out agree hs
  obtain ⟨u', hs', written⟩ := locality agree hs
  refine ⟨u', hs', ?_⟩
  intro i same
  by_cases hi : i ∈ F.writes
  · exact written i hi same
  · rw [frame hs i hi, frame hs' i hi, same]

/-- An event that is always defined, by what it emits and by the state it leaves. -/
theorem HasFootprint.of_total (next : σ → σ) (answer : σ → List ο)
    (total : ∀ s, step s e = some (next s, answer s))
    (frame : ∀ s i, i ∉ F.writes → c.get i (next s) = c.get i s)
    (answers : ∀ s s', Agree c F.reads s s' → answer s = answer s')
    (written : ∀ s s', Agree c F.reads s s' → ∀ i ∈ F.writes, c.get i s = c.get i s' →
      c.get i (next s) = c.get i (next s')) :
    HasFootprint c step e F := by
  apply HasFootprint.of_writes
  · intro s u out hs i hi
    rw [total] at hs
    obtain ⟨rfl, _⟩ := total_step hs
    exact frame s i hi
  · intro s s' u out agree hs
    rw [total] at hs
    obtain ⟨rfl, rfl⟩ := total_step hs
    exact ⟨next s', by rw [total, answers s s' agree], written s s' agree⟩

/-- An event that only answers. -/
theorem HasFootprint.of_query (next : σ → σ) (answer : σ → List ο)
    (total : ∀ s, step s e = some (next s, answer s)) (same : ∀ s, Alike c (next s) s)
    (answers : ∀ s s', Agree c K s s' → answer s = answer s') :
    HasFootprint c step e ⟨K, ∅⟩ := by
  apply HasFootprint.of_total next answer total (fun s i _ => same s i trivial) answers
  rintro s s' agree i ⟨⟩

theorem HasFootprint.of_undefined (undefined : ∀ s, step s e = none) : HasFootprint c step e F := by
  constructor
  · intro s u out hs
    rw [undefined] at hs
    cases hs
  · intro s s' u out agree hs
    rw [undefined] at hs
    cases hs

/-- A set of components that an event does not write is left as it is. -/
theorem HasFootprint.agree (hf : HasFootprint c step e F) (hs : step s e = some (u, out))
    (unwritten : Disjoint F.writes K) : Agree c K u s :=
  fun i hi => hf.frame hs i fun hw => unwritten.ne_of_mem hw hi rfl

/-- What an event emits and leaves in `K` depends on `K` alone. -/
def LocalOn (c : Components σ ι) (step : StepFunction σ ε ο) (K : Set ι) (e : ε) : Prop :=
  ∀ ⦃s s' u out⦄, Agree c K s s' → step s e = some (u, out) →
    ∃ u', step s' e = some (u', out) ∧ Agree c K u u'

/-- An event that leaves `K` as it is. -/
def InvisibleOn (c : Components σ ι) (step : StepFunction σ ε ο) (K : Set ι) (e : ε) : Prop :=
  ∀ ⦃s u out⦄, step s e = some (u, out) → Agree c K u s

theorem HasFootprint.localOn (hf : HasFootprint c step e F) (reads : F.reads ⊆ K) :
    LocalOn c step K e := by
  intro s s' u out agree hs
  obtain ⟨u', hs', same⟩ := hf.locality (agree.mono reads) hs
  exact ⟨u', hs', fun i hi => same i (agree i hi)⟩

theorem HasFootprint.invisibleOn (hf : HasFootprint c step e F) (writes : Disjoint F.writes K) :
    InvisibleOn c step K e := fun _ _ _ hs => hf.agree hs writes

/-- Both properties survive when less is observed. -/
def filtered (p : ο → Bool) (step : StepFunction σ ε ο) : StepFunction σ ε ο :=
  fun s e => (step s e).map fun r => (r.1, r.2.filter p)

theorem filtered_inv {p : ο → Bool} (h : filtered p step s e = some (u, out)) :
    ∃ out', step s e = some (u, out') ∧ out = out'.filter p := by
  simp only [filtered, Option.map_eq_some_iff, Prod.mk.injEq] at h
  obtain ⟨⟨w, out'⟩, hs, rfl, rfl⟩ := h
  exact ⟨out', hs, rfl⟩

theorem LocalOn.filtered (h : LocalOn c step K e) (p : ο → Bool) :
    LocalOn c (filtered p step) K e := by
  intro s s' u out agree hf
  obtain ⟨out', hs, rfl⟩ := filtered_inv hf
  obtain ⟨u', hs', next⟩ := h agree hs
  exact ⟨u', by simp [Footprints.filtered, hs'], next⟩

theorem InvisibleOn.filtered (h : InvisibleOn c step K e) (p : ο → Bool) :
    InvisibleOn c (filtered p step) K e := by
  intro s u out hf
  obtain ⟨out', hs, _⟩ := filtered_inv hf
  exact h hs

/-! ## Exchanging events -/

theorem HasFootprint.localOn_univ (hf : HasFootprint c step e F) : LocalOn c step Set.univ e :=
  hf.localOn (Set.subset_univ _)

/-- Two events with disjoint footprints commute: same outputs, and final states alike. -/
theorem HasFootprint.exchange (hf : HasFootprint c step e F) (hg : HasFootprint c step e' G)
    (ind : Independent F G) (hs : step s e = some (v, out)) (hv : step v e' = some (u, out')) :
    ∃ w u', step s e' = some (w, out') ∧ step w e = some (u', out) ∧ Alike c u u' := by
  have reads_e' : Agree c G.reads v s := hf.agree hs ind.writes_reads
  obtain ⟨w, hw, same_e'⟩ := hg.locality reads_e' hv
  have reads_e : Agree c F.reads s w := (hg.agree hw ind.reads_writes.symm).symm
  obtain ⟨u', hu', same_e⟩ := hf.locality reads_e hs
  refine ⟨w, u', hw, hu', ?_⟩
  intro i _
  by_cases hi : i ∈ F.writes
  · have hi' : i ∉ G.writes := fun hw' => ind.writes_writes.ne_of_mem hi hw' rfl
    rw [hg.frame hv i hi']
    exact same_e i (hg.frame hw i hi').symm
  · rw [hf.frame hu' i hi]
    exact same_e' i (hf.frame hs i hi)

/-- The orders of events reached by exchanging independent neighbours. -/
inductive Reordered (indep : ε → ε → Prop) : List ε → List ε → Prop where
  | refl (es : List ε) : Reordered indep es es
  | swap (before after : List ε) (a b : ε) (h : indep a b) :
      Reordered indep (before ++ a :: b :: after) (before ++ b :: a :: after)
  | trans {es fs gs : List ε} (h : Reordered indep es fs) (h' : Reordered indep fs gs) :
      Reordered indep es gs

variable {indep : ε → ε → Prop}

theorem Reordered.cons (a : ε) (h : Reordered indep es es') :
    Reordered indep (a :: es) (a :: es') := by
  induction h with
  | refl es => exact .refl _
  | swap before after b d h => exact .swap (a :: before) after b d h
  | trans _ _ ih ih' => exact ih.trans ih'

/-- An event may be moved behind events it is independent of. -/
theorem Reordered.move (a : ε) (before after : List ε) (h : ∀ b ∈ before, indep a b) :
    Reordered indep (a :: (before ++ after)) (before ++ a :: after) := by
  induction before with
  | nil => exact .refl _
  | cons b before ih =>
    have first := Reordered.swap [] (before ++ after) a b (h b (List.mem_cons_self ..))
    have rest := (ih fun d hd => h d (List.mem_cons_of_mem _ hd)).cons b
    exact first.trans rest

section Projections

variable [DecidableEq ε]

/-- What is left of a list when only two of its events are looked at. -/
def projection (a b : ε) (es : List ε) : List ε := es.filter fun e => e = a ∨ e = b

theorem projection_append (a b : ε) (es es' : List ε) :
    projection a b (es ++ es') = projection a b es ++ projection a b es' := List.filter_append ..

theorem projection_cons_self (a b : ε) (es : List ε) :
    projection a b (a :: es) = a :: projection a b es := by
  simp [projection]

theorem projection_cons_other {a b d : ε} (ha : d ≠ a) (hb : d ≠ b) (es : List ε) :
    projection a b (d :: es) = projection a b es := by
  simp [projection, ha, hb]

theorem projection_comm (a b : ε) (es : List ε) : projection a b es = projection b a es := by
  simp [projection, or_comm]

theorem projection_eq_nil {a b : ε} (h : ∀ d ∈ es, d ≠ a ∧ d ≠ b) : projection a b es = [] := by
  rw [projection, List.filter_eq_nil_iff]
  intro d hd
  simp [h d hd]

/-- Events that precede `a` in one of the two orders only are independent of it. -/
theorem independent_of_earlier {a : ε} {before after : List ε} (fresh : a ∉ before)
    (same : ∀ b, ¬ indep a b → projection a b (a :: es) = projection a b (before ++ a :: after)) :
    ∀ b ∈ before, indep a b := by
  intro b hb
  by_contra dependent
  have hba : b ≠ a := fun he => fresh (he ▸ hb)
  obtain ⟨p, q, rfl, hp⟩ := List.eq_append_cons_of_mem hb
  have none : projection a b p = [] := projection_eq_nil fun d hd =>
    ⟨fun he => fresh (he ▸ List.mem_append_left _ hd), fun he => hp (he ▸ hd)⟩
  have h := same b dependent
  rw [projection_cons_self, List.append_assoc, projection_append, none, List.nil_append,
    List.cons_append, projection_comm, projection_comm a b (b :: _), projection_cons_self] at h
  exact hba (List.cons.inj h).1.symm

/-- Two orders of the same events, in which every two dependent events come in the same order,
are reached from each other by exchanging independent neighbours. -/
theorem reordered_of_projections (symmetric : ∀ a b, indep a b → indep b a) (perm : es.Perm es')
    (same : ∀ a b, ¬ indep a b → projection a b es = projection a b es') :
    Reordered indep es es' := by
  induction es generalizing es' with
  | nil =>
    rw [← perm.nil_eq]
    exact .refl []
  | cons a es ih =>
    obtain ⟨before, after, rfl, fresh⟩ :=
      List.eq_append_cons_of_mem (perm.subset (List.mem_cons_self ..))
    have earlier := independent_of_earlier fresh (same a)
    -- without `a`, dependent events still come in the same order
    have with_a : ∀ b, ¬ indep a b → projection a b es = projection a b (before ++ after) := by
      intro b dependent
      have none : projection a b before = [] := projection_eq_nil fun d hd =>
        ⟨fun he => fresh (he ▸ hd), fun he => dependent (he ▸ earlier d hd)⟩
      have h := same a b dependent
      rw [projection_cons_self, projection_append, projection_cons_self, none] at h
      rw [projection_append, none]
      exact (List.cons.inj h).2
    have rest : ∀ x y, ¬ indep x y → projection x y es = projection x y (before ++ after) := by
      intro x y dependent
      by_cases hx : a = x
      · subst x
        exact with_a y dependent
      · by_cases hy : a = y
        · subst y
          rw [projection_comm, projection_comm x a]
          exact with_a x fun h => dependent (symmetric a x h)
        · have h := same x y dependent
          rwa [projection_cons_other hx hy, projection_append, projection_cons_other hx hy,
            ← projection_append] at h
    have tail := ih (perm.trans List.perm_middle).cons_inv rest
    exact (tail.cons a).trans (.move a before after earlier)

/-- Exchanging independent neighbours is not seen through two dependent events. -/
theorem Reordered.projections (symmetric : ∀ a b, indep a b → indep b a)
    (h : Reordered indep es es') :
    es.Perm es' ∧ ∀ a b, ¬ indep a b → projection a b es = projection a b es' := by
  induction h with
  | refl es => exact ⟨.refl es, fun _ _ _ => rfl⟩
  | trans _ _ ih ih' =>
    refine ⟨ih.1.trans ih'.1, ?_⟩
    intro a b dependent
    exact (ih.2 a b dependent).trans (ih'.2 a b dependent)
  | swap before after x y hxy =>
    refine ⟨(List.Perm.swap y x after).append_left before, ?_⟩
    intro a b dependent
    rw [projection_append, projection_append]
    by_cases hx : x = a ∨ x = b
    · by_cases hy : y = a ∨ y = b
      · have same : x = y := by
          rcases hx with rfl | rfl <;> rcases hy with rfl | rfl
          · rfl
          · exact absurd hxy dependent
          · exact absurd (symmetric _ _ hxy) dependent
          · rfl
        rw [same]
      · simp [projection, List.filter_cons, hy]
    · simp [projection, List.filter_cons, hx]

end Projections

/-! ## Runs -/

/-- What is seen of a transition from outside. -/
def seen (t : Transition σ ε ο) : ε × List ο := (t.event, t.outputs)

/-- What is seen of a run from `s`, and the state it ends in. -/
theorem run_cons (hs : step s e = some (v, out)) (hr : run step v es = some (tr, u)) :
    run step s (e :: es) = some (⟨s, e, out, v⟩ :: tr, u) := by
  simp [run, hs, hr]

theorem run_cons_inv (h : run step s (e :: es) = some (tr, u)) :
    ∃ v out rest, step s e = some (v, out) ∧ run step v es = some (rest, u) ∧
      tr = ⟨s, e, out, v⟩ :: rest := by
  cases hs : step s e with
  | none => simp [run, hs] at h
  | some r =>
    simp only [run, hs, Option.map_eq_some_iff, Prod.mk.injEq] at h
    obtain ⟨⟨rest, w⟩, hr, rfl, rfl⟩ := h
    exact ⟨r.1, r.2, rest, rfl, hr, rfl⟩

section Runs

variable {footprint : ε → Footprint ι}

theorem run_alike (hfp : ∀ e, HasFootprint c step e (footprint e)) (alike : Alike c s s')
    (h : run step s es = some (tr, u)) :
    ∃ tr' u', run step s' es = some (tr', u') ∧ Alike c u u' ∧ tr.map seen = tr'.map seen := by
  induction es generalizing s s' tr with
  | nil =>
    obtain ⟨rfl, rfl⟩ : [] = tr ∧ s = u := by simpa [run] using h
    exact ⟨[], s', rfl, alike, rfl⟩
  | cons e es ih =>
    obtain ⟨v, out, rest, hs, hr, rfl⟩ := run_cons_inv h
    obtain ⟨v', hs', next⟩ := (hfp e).localOn_univ alike hs
    obtain ⟨rest', u', hr', alike', same⟩ := ih next hr
    exact ⟨_, u', run_cons hs' hr', alike', by simp [same, seen]⟩

/-- States alike answer any further events the same. -/
theorem run_alike_eq (hfp : ∀ e, HasFootprint c step e (footprint e)) (alike : Alike c s s')
    (es : List ε) :
    (run step s es).map (fun r => r.1.map seen) = (run step s' es).map fun r => r.1.map seen := by
  cases h : run step s es with
  | some r =>
    obtain ⟨tr', u', h', _, same⟩ := run_alike hfp alike h
    simp [h', same]
  | none =>
    cases h' : run step s' es with
    | none => rfl
    | some r =>
      obtain ⟨_, _, defined, _⟩ := run_alike hfp alike.symm h'
      rw [h] at defined
      cases defined

theorem run_exchange (hfp : ∀ e, HasFootprint c step e (footprint e)) (before after : List ε)
    {a b : ε} (ind : Independent (footprint a) (footprint b))
    (h : run step s (before ++ a :: b :: after) = some (tr, u)) :
    ∃ tr' u', run step s (before ++ b :: a :: after) = some (tr', u') ∧ Alike c u u' ∧
      (tr.map seen).Perm (tr'.map seen) := by
  induction before generalizing s tr with
  | nil =>
    obtain ⟨v, out, rest, hs, hr, rfl⟩ := run_cons_inv h
    obtain ⟨w, out', rest, hv, hw, rfl⟩ := run_cons_inv hr
    obtain ⟨v', w', hs', hv', alike⟩ := (hfp a).exchange (hfp b) ind hs hv
    obtain ⟨rest', u', hr', alike', same⟩ := run_alike hfp alike hw
    refine ⟨_, u', run_cons hs' (run_cons hv' hr'), alike', ?_⟩
    rw [List.map_cons, List.map_cons, List.map_cons, List.map_cons, same]
    exact .swap ..
  | cons d before ih =>
    obtain ⟨v, out, rest, hs, hr, rfl⟩ := run_cons_inv h
    obtain ⟨rest', u', hr', alike, perm⟩ := ih hr
    exact ⟨_, u', run_cons hs hr', alike, perm.cons _⟩

/-- Reordered runs end in states alike, and every event emits what it emitted before. -/
theorem run_reordered (hfp : ∀ e, HasFootprint c step e (footprint e))
    (h : Reordered (fun a b => Independent (footprint a) (footprint b)) es es')
    (hr : run step s es = some (tr, u)) :
    ∃ tr' u', run step s es' = some (tr', u') ∧ Alike c u u' ∧
      (tr.map seen).Perm (tr'.map seen) := by
  induction h generalizing tr u with
  | refl es => exact ⟨tr, u, hr, fun _ _ => rfl, .refl _⟩
  | swap before after a b ind => exact run_exchange hfp before after ind hr
  | trans _ _ ih ih' =>
    obtain ⟨tr', u', hr', alike, perm⟩ := ih hr
    obtain ⟨tr'', u'', hr'', alike', perm'⟩ := ih' hr'
    exact ⟨tr'', u'', hr'', alike.trans alike', perm.trans perm'⟩

/-- Invisible events may be left out: the others emit the same and `K` ends up the same. -/
theorem run_slice {keep : ε → Bool} (kept : ∀ e, keep e = true → LocalOn c step K e)
    (dropped : ∀ e, keep e = false → InvisibleOn c step K e)
    (agree : Agree c K s s') (h : run step s es = some (tr, u)) :
    ∃ tr' u', run step s' (es.filter keep) = some (tr', u') ∧ Agree c K u u' ∧
      tr'.map seen = (tr.filter fun t => keep t.event).map seen := by
  induction es generalizing s s' tr with
  | nil =>
    obtain ⟨rfl, rfl⟩ : [] = tr ∧ s = u := by simpa [run] using h
    exact ⟨[], s', rfl, agree, rfl⟩
  | cons e es ih =>
    obtain ⟨v, out, rest, hs, hr, rfl⟩ := run_cons_inv h
    cases hk : keep e with
    | true =>
      obtain ⟨v', hs', next⟩ := kept e hk agree hs
      obtain ⟨rest', u', hr', agree', seen'⟩ := ih next hr
      refine ⟨⟨s', e, out, v'⟩ :: rest', u', ?_, agree', ?_⟩
      · rw [List.filter_cons_of_pos hk]
        exact run_cons hs' hr'
      · simp [hk, seen', seen]
    | false =>
      obtain ⟨rest', u', hr', agree', seen'⟩ := ih ((dropped e hk hs).trans agree) hr
      refine ⟨rest', u', ?_, agree', ?_⟩
      · rwa [List.filter_cons_of_neg (by simp [hk])]
      · simp [hk, seen']

/-- Runs with the same kept events, from states that agree on `K`, show the same for them. -/
theorem run_noninterference {keep : ε → Bool} (kept : ∀ e, keep e = true → LocalOn c step K e)
    (dropped : ∀ e, keep e = false → InvisibleOn c step K e)
    (agree : Agree c K s s') (same : es.filter keep = es'.filter keep)
    {tr' : List (Transition σ ε ο)} (h : run step s es = some (tr, u))
    (h' : run step s' es' = some (tr', v)) :
    Agree c K u v ∧ (tr.filter fun t => keep t.event).map seen =
      (tr'.filter fun t => keep t.event).map seen := by
  obtain ⟨x, a, hx, agree_u, seen_u⟩ := run_slice kept dropped agree h
  obtain ⟨y, b, hy, agree_v, seen_v⟩ := run_slice kept dropped (fun _ _ => rfl) h'
  rw [same, hy] at hx
  obtain ⟨rfl, rfl⟩ : y = x ∧ b = a := by simpa using hx
  exact ⟨agree_u.trans agree_v.symm, seen_u.symm.trans seen_v⟩

/-! ### Events the step takes for the same -/

/-- What is seen of a transition when events are told apart through `f` only. -/
def seenAs (f : ε → ε) (t : Transition σ ε ο) : ε × List ο := (f t.event, t.outputs)

/-- A step that does not tell an event from its image. -/
def Blind (step : StepFunction σ ε ο) (f : ε → ε) : Prop := ∀ s e, step s (f e) = step s e

variable {f : ε → ε}

theorem Blind.filtered (h : Blind step f) (p : ο → Bool) : Blind (filtered p step) f := by
  intro s e
  rw [Footprints.filtered, Footprints.filtered, h s e]

theorem Blind.run (h : Blind step f) (s : σ) (es : List ε) :
    run step s (es.map f) =
      (run step s es).map fun r => (r.1.map fun t => { t with event := f t.event }, r.2) := by
  induction es generalizing s with
  | nil => rfl
  | cons e es ih =>
    rw [List.map_cons, TransitionRuns.run, TransitionRuns.run, h s e]
    cases step s e with
    | none => rfl
    | some r => simp [ih, Function.comp_def]

theorem Blind.run_some (h : Blind step f) (hr : TransitionRuns.run step s es = some (tr, u)) :
    TransitionRuns.run step s (es.map f) =
      some (tr.map fun t => { t with event := f t.event }, u) := by
  rw [h.run, hr, Option.map_some]

theorem seen_image (tr : List (Transition σ ε ο)) :
    (tr.map fun t => { t with event := f t.event }).map seen = tr.map (seenAs f) := by
  rw [List.map_map]
  rfl

/-- Reordered runs, of events that are the same to the step. -/
theorem Blind.run_reordered (h : Blind step f)
    (hfp : ∀ e, HasFootprint c step e (footprint e))
    (order : Reordered (fun a b => Independent (footprint a) (footprint b)) (es.map f) (es'.map f))
    (hr : TransitionRuns.run step s es = some (tr, u)) :
    ∃ tr' u', TransitionRuns.run step s es' = some (tr', u') ∧ Alike c u u' ∧
      (tr.map (seenAs f)).Perm (tr'.map (seenAs f)) := by
  obtain ⟨x, u', hx, alike, perm⟩ := Footprints.run_reordered hfp order (h.run_some hr)
  rw [h.run, Option.map_eq_some_iff] at hx
  obtain ⟨⟨tr', w⟩, hr', hx⟩ := hx
  obtain ⟨rfl, rfl⟩ := Prod.mk.inj hx
  rw [seen_image, seen_image] at perm
  exact ⟨tr', w, hr', alike, perm⟩

/-- Runs whose kept events are the same to the step. -/
theorem Blind.run_noninterference (h : Blind step f) {keep : ε → Bool}
    (keeps : ∀ e, keep (f e) = keep e) (kept : ∀ e, keep e = true → LocalOn c step K e)
    (dropped : ∀ e, keep e = false → InvisibleOn c step K e) (agree : Agree c K s s')
    (same : (es.filter keep).map f = (es'.filter keep).map f)
    {tr' : List (Transition σ ε ο)} (hr : TransitionRuns.run step s es = some (tr, u))
    (hr' : TransitionRuns.run step s' es' = some (tr', v)) :
    Agree c K u v ∧ (tr.filter fun t => keep t.event).map (seenAs f) =
      (tr'.filter fun t => keep t.event).map (seenAs f) := by
  have images : ∀ es : List ε, (es.map f).filter keep = (es.filter keep).map f := by
    intro es
    rw [List.filter_map, show keep ∘ f = keep from funext keeps]
  have traces : ∀ tr : List (Transition σ ε ο),
      ((tr.map fun t => { t with event := f t.event }).filter fun t => keep t.event).map seen =
        (tr.filter fun t => keep t.event).map (seenAs f) := by
    intro tr
    rw [List.filter_map, seen_image]
    simp only [Function.comp_def, keeps]
  have both := Footprints.run_noninterference kept dropped agree
    ((images es).trans (same.trans (images es').symm)) (h.run_some hr) (h.run_some hr')
  rwa [traces, traces] at both

end Runs

end Footprints
