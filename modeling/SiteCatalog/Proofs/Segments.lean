import SiteCatalog.Proofs.Compilation.Facts
import SiteCatalog.Proofs.WordEnds

/-!
# Names made of segments

A name is put together from segments with separators between them. Its small letters are put
together from segments as well, one for each of its own, and the namespaces around it are put
together from the first ones.

Results:
* `Name.lowerBetween_join`, `Name.take_lowerSegments`: the small letters of a name and of the
  namespaces around it.
* `Name.enclosing_text`: the namespaces around a name.
* `Name.length_eq_of_join_eq`: a text determines the number of its segments.
-/

namespace SiteCatalog

namespace Name

open Text

/-- A segment of a name. -/
structure IsSegment (seg : List Char) : Prop where
  ne_nil : seg ≠ []
  colon : ':' ∉ seg
  slash : seg.head? ≠ some '/'

instance (seg : List Char) : Decidable (IsSegment seg) :=
  decidable_of_iff (seg ≠ [] ∧ ':' ∉ seg ∧ seg.head? ≠ some '/')
    ⟨fun ⟨h, h', h''⟩ => ⟨h, h', h''⟩, fun h => ⟨h.ne_nil, h.colon, h.slash⟩⟩

/-- Segments with separators between them. -/
def join (segs : List (List Char)) : List Char :=
  separator.intercalate segs

/-- The name that is put together from segments. -/
def text (segs : List (List Char)) : String :=
  String.ofList (join segs)

variable {seg : List Char} {segs more : List (List Char)}

@[simp] theorem toList_text (segs : List (List Char)) : (text segs).toList = join segs :=
  String.toList_ofList

theorem join_singleton (seg : List Char) : join [seg] = seg :=
  List.intercalate_singleton

theorem join_cons (seg : List Char) (h : more ≠ []) :
    join (seg :: more) = seg ++ ':' :: ':' :: join more := by
  obtain ⟨t, rest, rfl⟩ := List.exists_cons_of_ne_nil h
  simp [join, List.intercalate, separator]

theorem join_append (h : segs ≠ []) (h' : more ≠ []) :
    join (segs ++ more) = join segs ++ ':' :: ':' :: join more := by
  induction segs with
  | nil => exact absurd rfl h
  | cons seg rest ih =>
    by_cases hrest : rest = []
    · rw [hrest, join_singleton, List.singleton_append, join_cons seg h']
    · rw [List.cons_append, join_cons seg (by simp [hrest]), ih hrest, join_cons seg hrest,
        List.append_assoc]
      rfl

/-- A name has no characters but those of its segments and colons. -/
theorem mem_join {c : Char} (h : c ∈ join segs) : c = ':' ∨ ∃ seg ∈ segs, c ∈ seg := by
  induction segs with
  | nil => cases h
  | cons seg rest ih =>
    by_cases hrest : rest = []
    · rw [hrest, join_singleton] at h
      exact .inr ⟨seg, List.mem_cons_self, h⟩
    · rw [join_cons seg hrest, List.mem_append, List.mem_cons, List.mem_cons] at h
      rcases h with h | h | h | h
      · exact .inr ⟨seg, List.mem_cons_self, h⟩
      · exact .inl h
      · exact .inl h
      · refine (ih h).imp_right fun ⟨t, ht, hc⟩ => ⟨t, List.mem_cons_of_mem _ ht, hc⟩

theorem text_append (h : segs ≠ []) (h' : more ≠ []) :
    text (segs ++ more) = text segs ++ "::" ++ text more := by
  rw [← String.toList_inj, toList_text, join_append h h']
  simp

theorem join_ne_nil (h : ∀ seg ∈ segs, IsSegment seg) (hne : segs ≠ []) : join segs ≠ [] := by
  obtain ⟨seg, rest, rfl⟩ := List.exists_cons_of_ne_nil hne
  by_cases hrest : rest = []
  · rw [hrest, join_singleton]
    exact (h seg List.mem_cons_self).ne_nil
  · rw [join_cons seg hrest]
    simp

/-- A name starts like its first segment. -/
theorem head?_join (h : IsSegment seg) (more : List (List Char)) :
    (join (seg :: more)).head? = seg.head? := by
  obtain ⟨c, cs, rfl⟩ := List.exists_cons_of_ne_nil h.ne_nil
  by_cases hmore : more = []
  · rw [hmore, join_singleton]
  · rw [join_cons _ hmore]
    rfl

/-! ## Counting segments -/

theorem count_join (h : ∀ seg ∈ segs, IsSegment seg) (hne : segs ≠ []) :
    (join segs).count ':' + 2 = 2 * segs.length := by
  induction segs with
  | nil => exact absurd rfl hne
  | cons seg rest ih =>
    have hseg : seg.count ':' = 0 := List.count_eq_zero.mpr (h seg List.mem_cons_self).colon
    by_cases hrest : rest = []
    · rw [hrest, join_singleton, hseg]
      rfl
    · have := ih (fun t ht => h t (List.mem_cons_of_mem _ ht)) hrest
      rw [join_cons seg hrest, List.count_append, hseg, List.length_cons]
      simp only [List.count_cons_self]
      omega

/-- A text determines the number of its segments. -/
theorem length_eq_of_join_eq (h : ∀ seg ∈ segs, IsSegment seg) (h' : ∀ seg ∈ more, IsSegment seg)
    (hne : segs ≠ []) (hne' : more ≠ []) (heq : join segs = join more) :
    segs.length = more.length := by
  have hcount := count_join h hne
  have hcount' := count_join h' hne'
  rw [heq] at hcount
  omega

theorem length_le_length_join (h : ∀ seg ∈ segs, IsSegment seg) :
    segs.length ≤ (join segs).length := by
  induction segs with
  | nil => exact Nat.le_refl 0
  | cons seg rest ih =>
    obtain ⟨hseg, hrest⟩ := List.forall_mem_cons.mp h
    have hpos := List.length_pos_iff.mpr hseg.ne_nil
    by_cases hempty : rest = []
    · rw [hempty, join_singleton]
      exact hpos
    · have := ih hrest
      rw [join_cons seg hempty, List.length_append, List.length_cons, List.length_cons,
        List.length_cons]
      omega

/-! ## Small letters of segments -/

/-- The small letters of segments in their places in a name, which stands between texts that end and
start with a cased character or not. -/
def lowerSegments (before after : Bool) : List (List Char) → List (List Char)
  | [] => []
  | seg :: rest =>
    lowerBetween before (casedBefore after (join rest)) seg ::
      lowerSegments (casedAfter before seg) after rest

@[simp] theorem length_lowerSegments (before after : Bool) (segs : List (List Char)) :
    (lowerSegments before after segs).length = segs.length := by
  induction segs generalizing before with
  | nil => rfl
  | cons seg rest ih => rw [lowerSegments, List.length_cons, ih, List.length_cons]

theorem lowerSegments_eq_nil {before after : Bool} :
    lowerSegments before after segs = [] ↔ segs = [] := by
  rw [← List.length_eq_zero_iff, length_lowerSegments, List.length_eq_zero_iff]

/-- The small letters of a name, segment by segment. -/
theorem lowerBetween_join (before after : Bool) (segs : List (List Char)) :
    lowerBetween before after (join segs) = join (lowerSegments before after segs) := by
  induction segs generalizing before with
  | nil => rfl
  | cons seg rest ih =>
    by_cases hrest : rest = []
    · rw [hrest, join_singleton, lowerSegments, lowerSegments, join_singleton]
      rfl
    · rw [join_cons seg hrest, lowerBetween_append, casedBefore_separator, lowerBetween_separator,
        ih, lowerSegments, join_cons _ (lowerSegments_eq_nil.not.mpr hrest)]

/-- What a name starts with matters to the text before it, however it is cut. -/
theorem casedBefore_join_append (b : Bool) (segs more : List (List Char)) :
    casedBefore b (join (segs ++ more)) = casedBefore (casedBefore b (join more)) (join segs) := by
  by_cases hsegs : segs = []
  · subst hsegs
    rfl
  by_cases hmore : more = []
  · subst hmore
    rw [List.append_nil]
    rfl
  rw [join_append hsegs hmore, casedBefore_append, casedBefore_separator]

/-- The first small segments are those of the first segments before the rest of the name. -/
theorem take_lowerSegments (before after : Bool) (segs : List (List Char)) (k : ℕ) :
    (lowerSegments before after segs).take k =
      lowerSegments before (casedBefore after (join (segs.drop k))) (segs.take k) := by
  induction segs generalizing before k with
  | nil => simp [lowerSegments]
  | cons seg rest ih =>
    cases k with
    | zero => rfl
    | succ k =>
      rw [lowerSegments, List.take_succ_cons, ih, List.take_succ_cons, lowerSegments,
        List.drop_succ_cons, ← casedBefore_join_append, List.take_append_drop]

/-- The small letters of segments in front of others. -/
theorem lowerSegments_append (before after : Bool) (segs more : List (List Char)) :
    lowerSegments before after (segs ++ more) =
      lowerSegments before (casedBefore after (join more)) segs ++
        lowerSegments (casedAfter before (join segs)) after more := by
  induction segs generalizing before with
  | nil => rfl
  | cons seg rest ih =>
    have hafter : casedAfter (casedAfter before seg) (join rest) =
        casedAfter before (join (seg :: rest)) := by
      by_cases hrest : rest = []
      · rw [hrest, join_singleton]
        rfl
      · rw [join_cons seg hrest, casedAfter_append, casedAfter_separator]
    rw [List.cons_append, lowerSegments, ih, casedBefore_join_append, hafter, lowerSegments,
      List.cons_append]

/-- Segments in small letters stay as they are. -/
theorem lowerSegments_lowerSegments (before after before' after' : Bool)
    (segs : List (List Char)) :
    lowerSegments before after (lowerSegments before' after' segs) =
      lowerSegments before' after' segs := by
  induction segs generalizing before before' with
  | nil => rfl
  | cons seg rest ih =>
    rw [lowerSegments, lowerSegments, ih,
      lowerBetween_of_isSmall fun _ hx => isSmall_of_mem_lowerBetween hx]

theorem isSegment_lowerBetween {before after : Bool} (h : IsSegment seg) :
    IsSegment (lowerBetween before after seg) where
  ne_nil := by
    obtain ⟨c, cs, rfl⟩ := List.exists_cons_of_ne_nil h.ne_nil
    rw [lowerBetween]
    refine List.append_ne_nil_of_left_ne_nil ?_ _
    split
    · exact List.cons_ne_nil _ _
    · exact lowerChar_ne_nil c
  colon hmem := h.colon (mem_of_mem_lowerBetween hmem (by decide))
  slash hhead := h.slash (head?_of_head?_lowerBetween hhead (by decide))

theorem isSegment_of_mem_lowerSegments {before after : Bool} (h : ∀ seg ∈ segs, IsSegment seg) :
    ∀ seg ∈ lowerSegments before after segs, IsSegment seg := by
  induction segs generalizing before with
  | nil => exact fun _ hseg => nomatch hseg
  | cons seg rest ih =>
    obtain ⟨hseg, hrest⟩ := List.forall_mem_cons.mp h
    rw [lowerSegments]
    exact List.forall_mem_cons.mpr ⟨isSegment_lowerBetween hseg, ih hrest⟩

/-! ## Namespaces around a name -/

theorem splitLast?_of_not_mem (h : ':' ∉ seg) : splitLast? seg = none :=
  splitLast?_eq_none fun hsep => h (hsep.subset List.mem_cons_self)

theorem splitLast?_append_separator (before : List Char) (h : ':' ∉ seg) :
    splitLast? (before ++ ':' :: ':' :: seg) = some (before, seg) := by
  induction before with
  | nil =>
    have hstart : startsWithSeparator (':' :: seg) = false := by
      refine Bool.eq_false_iff.mpr fun hstart => ?_
      obtain ⟨rest, heq⟩ := startsWithSeparator_iff.mp hstart
      exact h ((List.cons.inj heq).2 ▸ List.mem_cons_self)
    rw [List.nil_append, splitLast?, splitLast?, splitLast?_of_not_mem h]
    dsimp only
    rw [hstart]
    rfl
  | cons c before ih =>
    rw [List.cons_append, splitLast?, ih]

/-- The namespace around a name lacks the last segment. -/
theorem qualifier_text_concat (h : ':' ∉ seg) : qualifier (text (segs ++ [seg])) = text segs := by
  rw [qualifier, toList_text]
  by_cases hsegs : segs = []
  · rw [hsegs, List.nil_append, join_singleton, splitLast?_of_not_mem h]
    rfl
  · rw [join_append hsegs (List.cons_ne_nil _ _), join_singleton, splitLast?_append_separator _ h]
    rfl

theorem text_ne_empty (h : ∀ seg ∈ segs, IsSegment seg) (hne : segs ≠ []) : text segs ≠ "" := by
  rw [Ne, ← String.toList_eq_nil_iff, toList_text]
  exact join_ne_nil h hne

/-- The namespaces around a name are put together from its first segments. -/
theorem enclosing_text (h : ∀ seg ∈ segs, IsSegment seg) {fuel k : ℕ} (hk : k ≤ segs.length)
    (hfuel : k ≤ fuel) : Registry.enclosing fuel (text (segs.take k)) =
      (List.range k).reverse.map fun j => text (segs.take (j + 1)) := by
  induction k generalizing fuel with
  | zero => cases fuel <;> rfl
  | succ k ih =>
    cases fuel with
    | zero => exact absurd hfuel (Nat.not_succ_le_zero k)
    | succ fuel =>
      have hlast : segs.take (k + 1) = segs.take k ++ [segs[k]] :=
        (List.take_append_getElem hk).symm
      have hsegs : ∀ seg ∈ segs.take (k + 1), IsSegment seg := fun seg hseg =>
        h seg (List.mem_of_mem_take hseg)
      have hne : text (segs.take (k + 1)) ≠ "" :=
        text_ne_empty hsegs (hlast ▸ List.append_ne_nil_of_right_ne_nil _ (List.cons_ne_nil _ _))
      rw [Registry.enclosing, if_neg hne, List.range_succ, List.reverse_append,
        List.reverse_singleton, List.singleton_append, List.map_cons,
        ← ih (Nat.le_of_succ_le hk) (Nat.le_of_succ_le_succ hfuel), hlast,
        qualifier_text_concat (h _ (List.getElem_mem hk)).colon]

end Name

end SiteCatalog
