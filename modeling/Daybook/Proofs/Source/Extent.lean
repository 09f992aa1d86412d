import Daybook.Source.Span

/-!
The extent of values that were read one after the other.

`extent` covers the spans of a list of values, in whatever order they are. Where the spans increase,
which those of tokens do, the first one and the last one are all that counts
(`extent_append_append`); that is why a production may join the spans of its ends and leave out what
is between them.
-/

namespace Daybook

namespace Span

theorem eq_of_bounds {a b : Span} (hstart : a.start = b.start) (hstop : a.stop = b.stop) :
    a = b := by
  obtain ⟨_, _, _⟩ := a
  obtain ⟨_, _, _⟩ := b
  simp_all

theorem union_assoc (a b c : Span) : (a.union b).union c = a.union (b.union c) := by
  refine eq_of_bounds ?_ ?_
  · simp only [union]; omega
  · simp only [union]; omega

/-- Covering more spans goes on from what covers the first ones. -/
theorem covering_append (a : Span) (bs cs : List Span) :
    covering a (bs ++ cs) = covering (covering a bs) cs :=
  List.foldl_append

/-- What covers spans begins with the first one, however that is put together. -/
theorem union_covering (a b : Span) (cs : List Span) :
    covering (a.union b) cs = a.union (covering b cs) := by
  induction cs generalizing b with
  | nil => rfl
  | cons c cs ih =>
    calc covering ((a.union b).union c) cs
        = covering (a.union (b.union c)) cs := by rw [union_assoc]
      _ = a.union (covering (b.union c) cs) := ih _

/-- A covering span lies inside another one just when all that it covers do. -/
theorem covering_inside_iff {first : Span} {others : List Span} {s : Span} :
    s.start ≤ (covering first others).start ∧ (covering first others).stop ≤ s.stop
      ↔ ∀ t ∈ first :: others, s.start ≤ t.start ∧ t.stop ≤ s.stop := by
  induction others generalizing first with
  | nil => rw [List.forall_mem_singleton]; rfl
  | cons other others ih =>
    have hunion : s.start ≤ (first.union other).start ∧ (first.union other).stop ≤ s.stop
        ↔ (s.start ≤ first.start ∧ first.stop ≤ s.stop)
          ∧ s.start ≤ other.start ∧ other.stop ≤ s.stop := by
      simp only [union]
      omega
    have hstep : covering first (other :: others) = covering (first.union other) others := rfl
    rw [hstep, ih, List.forall_mem_cons, hunion, List.forall_mem_cons, List.forall_mem_cons,
      and_assoc]

/-- What covers some spans contains each of them. -/
theorem inside_covering {first t : Span} {others : List Span} (h : t ∈ first :: others) :
    (covering first others).start ≤ t.start ∧ t.stop ≤ (covering first others).stop :=
  covering_inside_iff.1 ⟨Nat.le_refl _, Nat.le_refl _⟩ t h

/-- What is covered does not depend on how the spans are listed. -/
theorem covering_congr {first other : Span} {others more : List Span}
    (h : (first :: others).Perm (other :: more)) : covering first others = covering other more := by
  have hright : (covering other more).start ≤ (covering first others).start
      ∧ (covering first others).stop ≤ (covering other more).stop :=
    covering_inside_iff.2 fun t ht => inside_covering (h.mem_iff.1 ht)
  have hleft : (covering first others).start ≤ (covering other more).start
      ∧ (covering other more).stop ≤ (covering first others).stop :=
    covering_inside_iff.2 fun t ht => inside_covering (h.mem_iff.2 ht)
  exact eq_of_bounds (by omega) (by omega)

/-- Spans that are all the same cover nothing else. -/
theorem covering_of_forall {first : Span} {others : List Span} (h : ∀ s ∈ others, s = first) :
    covering first others = first := by
  have hall : ∀ s ∈ first :: others, first.start ≤ s.start ∧ s.stop ≤ first.stop := by
    intro s hs
    rcases List.mem_cons.1 hs with rfl | hs
    · exact ⟨Nat.le_refl _, Nat.le_refl _⟩
    · rw [h s hs]
      exact ⟨Nat.le_refl _, Nat.le_refl _⟩
  have hinside := covering_inside_iff.2 hall
  have hfirst := inside_covering (List.mem_cons_self (a := first) (l := others))
  exact eq_of_bounds (by omega) (by omega)

end Span

namespace Spanned

variable {α : Type}

/-- The smallest span that covers all of a list. -/
def extent : List (Spanned α) → Span
  | [] => Span.point 0
  | t :: ts => Span.covering t.span (ts.map (·.span))

/-- Neither end of a span lies before the same end of an earlier one. -/
def Increasing (ts : List (Spanned α)) : Prop :=
  ts.Pairwise fun a b => a.span.start ≤ b.span.start ∧ a.span.stop ≤ b.span.stop

@[simp] theorem extent_singleton (t : Spanned α) : extent [t] = t.span := rfl

/-- The extent of a list is put together from those of its parts. -/
theorem extent_append {ts us : List (Spanned α)} (hts : ts ≠ []) (hus : us ≠ []) :
    extent (ts ++ us) = (extent ts).union (extent us) := by
  obtain ⟨t, ts, rfl⟩ := List.exists_cons_of_ne_nil hts
  obtain ⟨u, us, rfl⟩ := List.exists_cons_of_ne_nil hus
  calc extent (t :: ts ++ u :: us)
      = Span.covering t.span (ts.map (·.span) ++ (u :: us).map (·.span)) := by
        simp only [extent, List.cons_append, List.map_append]
    _ = Span.covering ((Span.covering t.span (ts.map (·.span))).union u.span)
          (us.map (·.span)) := Span.covering_append _ _ _
    _ = (extent (t :: ts)).union (extent (u :: us)) := Span.union_covering _ _ _

/-- Spans that increase begin where the first one does. -/
theorem extent_start {t : Spanned α} {ts : List (Spanned α)} (h : Increasing (t :: ts)) :
    (extent (t :: ts)).start = t.span.start := by
  induction ts generalizing t with
  | nil => rfl
  | cons u us ih =>
    have hu := ih (List.pairwise_cons.1 h).2
    have htu := (List.pairwise_cons.1 h).1 u List.mem_cons_self
    rw [← List.singleton_append, extent_append (List.cons_ne_nil t []) (List.cons_ne_nil u us)]
    simp only [Span.union, extent_singleton]
    omega

/-- Spans that increase end where the last one does. -/
theorem extent_stop (ts : List (Spanned α)) {t : Spanned α} (h : Increasing (ts ++ [t])) :
    (extent (ts ++ [t])).stop = t.span.stop := by
  induction ts with
  | nil => rfl
  | cons u us ih =>
    have ht := ih (List.pairwise_cons.1 h).2
    have hut := (List.pairwise_cons.1 h).1 t (by simp)
    rw [List.cons_append, ← List.singleton_append,
      extent_append (List.cons_ne_nil u []) (by simp)]
    simp only [Span.union, extent_singleton]
    omega

/-- Each of the values lies inside of the extent. -/
theorem inside_extent {t : Spanned α} {ts : List (Spanned α)} (h : t ∈ ts) :
    (extent ts).start ≤ t.span.start ∧ t.span.stop ≤ (extent ts).stop := by
  cases ts with
  | nil => cases h
  | cons first ts => exact Span.inside_covering (List.mem_map_of_mem (f := Spanned.span) h)

/-- **What lies between the ends does not count.** -/
theorem extent_append_append (ts us vs : List (Spanned α)) (h : Increasing (ts ++ us ++ vs))
    (hts : ts ≠ []) (hvs : vs ≠ []) :
    extent (ts ++ us ++ vs) = (extent ts).union (extent vs) := by
  obtain ⟨first, ts, rfl⟩ := List.exists_cons_of_ne_nil hts
  obtain ⟨vs, last, rfl⟩ : ∃ init last, vs = init ++ [last] :=
    ⟨_, _, (List.dropLast_concat_getLast hvs).symm⟩
  have hall : Increasing (first :: (ts ++ us ++ vs ++ [last])) := by simpa using h
  have hleft : Increasing (first :: ts) :=
    (List.pairwise_append.1 (List.pairwise_append.1 h).1).1
  have hright : Increasing (vs ++ [last]) := (List.pairwise_append.1 h).2.1
  have hsplit : first :: ts ++ us ++ (vs ++ [last]) = first :: (ts ++ us ++ vs ++ [last]) := by
    simp
  have hstart := extent_start hall
  have hstop : (extent (first :: (ts ++ us ++ vs ++ [last]))).stop = last.span.stop :=
    extent_stop (first :: (ts ++ us ++ vs)) hall
  -- The other two ends lie inside: both belong to spans of the same increasing list.
  have hinner : first.span.start ≤ (extent (vs ++ [last])).start := by
    cases vs with
    | nil => exact ((List.pairwise_cons.1 hall).1 last (by simp)).1
    | cons v vs =>
      have hstart' : (extent (v :: vs ++ [last])).start = v.span.start := extent_start hright
      rw [hstart']
      exact ((List.pairwise_cons.1 hall).1 v (by simp)).1
  have houter : (extent (first :: ts)).stop ≤ last.span.stop := by
    obtain ⟨init, t, ht⟩ : ∃ init t, first :: ts = init ++ [t] :=
      ⟨_, _, (List.dropLast_concat_getLast (List.cons_ne_nil first ts)).symm⟩
    rw [ht] at h hleft ⊢
    rw [extent_stop init hleft]
    exact ((List.pairwise_append.1 h).2.2 t (by simp) last (by simp)).2
  rw [hsplit]
  refine Span.eq_of_bounds ?_ ?_
  · simp only [Span.union, hstart, extent_start hleft]; omega
  · simp only [Span.union, hstop, extent_stop vs hright]; omega

end Spanned

end Daybook
