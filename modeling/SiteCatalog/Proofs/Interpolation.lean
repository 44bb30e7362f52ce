import Mathlib.Data.List.Infix
import Mathlib.Data.List.TakeWhile
import SiteCatalog.Interpolation
import SiteCatalog.Name

/-!
# References in strings

A string is cut into texts and references to variables. The cut loses nothing and is the only one in
which every reference is taken from the left, each as long as it can be.

Results:
* `variableName?_of_prefix`, `exists_of_variableName?`: a name is read, and it is the longest one.
* `Cut`: the pieces of a text. `exists_cut` and `Cut.parts_eq`: every text has a cut, and reading the
  text finds its parts.
* `interpolate_eq_literal_iff`, `interpolate_eq_var_iff`: the strings without a reference, and those
  that are one.
* `interpolate_exact`: what the expression of a string says of the string.
-/

namespace SiteCatalog.Interpolation

open SiteCatalog.Text

/-! ## Names of variables -/

/-- A segment of a variable name. -/
def IsSegment (cs : List Char) : Prop :=
  ∃ c rest, cs = c :: rest ∧ isSegmentStart c = true ∧ ∀ x ∈ rest, isWord x = true

/-- Segments, each after a separator. -/
def separated (segments : List (List Char)) : List Char :=
  segments.flatMap (Name.separator ++ ·)

/-- The name of a variable: segments with separators between them, and perhaps one in front. -/
def IsVariableName (cs : List Char) : Prop :=
  ∃ lead s more, (lead = [] ∨ lead = Name.separator) ∧ IsSegment s ∧ (∀ t ∈ more, IsSegment t) ∧
    cs = lead ++ s ++ separated more

/-- A variable name that what follows cannot make longer. -/
def IsLongestName (name rest : List Char) : Prop :=
  IsVariableName name ∧ ∀ w, w ≠ [] → w <+: rest → ¬IsVariableName (name ++ w)

theorem isWord_colon : isWord ':' = false := by
  decide

theorem isWord_brace : isWord '\x7d' = false := by
  decide

theorem IsSegment.not_mem {s : List Char} (h : IsSegment s) {x : Char}
    (hstart : isSegmentStart x = false) (hword : isWord x = false) : x ∉ s := by
  obtain ⟨c, rest, rfl, hc, hrest⟩ := h
  intro hx
  rcases List.mem_cons.mp hx with rfl | hx
  · rw [hstart] at hc
    cases hc
  · rw [hrest x hx] at hword
    cases hword

/-- A name contains no closing brace. -/
theorem IsVariableName.brace_not_mem {name : List Char} (h : IsVariableName name) :
    '\x7d' ∉ name := by
  obtain ⟨lead, s, more, hlead, hs, hmore, rfl⟩ := h
  have hsegment : ∀ t, IsSegment t → '\x7d' ∉ t := fun t ht => ht.not_mem (by decide) isWord_brace
  have hseparator : '\x7d' ∉ Name.separator := by decide
  simp only [List.mem_append, separated, List.mem_flatMap, not_or, not_exists, not_and]
  refine ⟨⟨?_, hsegment s hs⟩, fun t ht => ⟨hseparator, hsegment t (hmore t ht)⟩⟩
  rcases hlead with rfl | rfl
  · exact List.not_mem_nil
  · exact hseparator

/-- A name does not begin with an opening brace. -/
theorem IsVariableName.head?_ne {name : List Char} (h : IsVariableName name) :
    name.head? ≠ some '\x7b' := by
  obtain ⟨lead, s, more, hlead, ⟨c, rest, rfl, hc, -⟩, -, rfl⟩ := h
  rcases hlead with rfl | rfl
  · rintro heq
    obtain rfl : c = '\x7b' := Option.some.inj heq
    exact absurd hc (by decide)
  · exact fun heq => absurd (Option.some.inj heq) (by decide)

/-! ### Reading a segment -/

theorem exists_of_segment? {cs s rest : List Char} (h : segment? cs = some (s, rest)) :
    IsSegment s ∧ cs = s ++ rest := by
  unfold segment? at h
  split at h
  · cases h
  · next c tail =>
    split at h
    · next hc =>
      cases h
      exact ⟨⟨c, _, rfl, hc, fun x hx => List.mem_takeWhile_imp hx⟩,
        congrArg (c :: ·) List.takeWhile_append_dropWhile.symm⟩
    · cases h

/-- A segment is read together with the word characters after it. -/
theorem segment?_append {s : List Char} (h : IsSegment s) (rest : List Char) :
    segment? (s ++ rest) = some (s ++ rest.takeWhile isWord, rest.dropWhile isWord) := by
  obtain ⟨c, tail, rfl, hc, htail⟩ := h
  rw [List.cons_append, segment?, if_pos hc, List.takeWhile_append_of_pos htail,
    List.dropWhile_append_of_pos htail]
  rfl

/-! ### Reading further segments -/

theorem exists_of_moreSegments {fuel : ℕ} {cs more rest : List Char}
    (h : moreSegments fuel cs = (more, rest)) :
    cs = more ++ rest ∧ ∃ segments, (∀ t ∈ segments, IsSegment t) ∧ more = separated segments := by
  have hnone : ∀ {cs more rest : List Char}, (([], cs) : List Char × List Char) = (more, rest) →
      cs = more ++ rest ∧
        ∃ segments, (∀ t ∈ segments, IsSegment t) ∧ more = separated segments := by
    rintro _ _ _ ⟨⟩
    exact ⟨rfl, [], fun _ ht => absurd ht List.not_mem_nil, rfl⟩
  induction fuel generalizing cs more rest with
  | zero => exact hnone h
  | succ fuel ih =>
    unfold moreSegments at h
    split at h
    · next tail =>
      split at h
      · next s after hs =>
        obtain ⟨hsegment, rfl⟩ := exists_of_segment? hs
        obtain ⟨hafter, segments, hsegments, hmore⟩ := ih (rfl : moreSegments fuel after = (_, _))
        cases h
        refine ⟨?_, s :: segments, List.forall_mem_cons.mpr ⟨hsegment, hsegments⟩, ?_⟩
        · conv_lhs => rw [hafter]
          simp
        · rw [hmore]
          rfl
      · exact hnone h
    · exact hnone h

/-- A separator ends a segment. -/
theorem takeWhile_separated (t : List Char) (segments : List (List Char)) (tail : List Char) :
    (separated (t :: segments) ++ tail).takeWhile isWord = [] := by
  simp [separated, Name.separator, isWord_colon]

theorem dropWhile_separated (t : List Char) (segments : List (List Char)) (tail : List Char) :
    (separated (t :: segments) ++ tail).dropWhile isWord = separated (t :: segments) ++ tail := by
  simp [separated, Name.separator, isWord_colon]

/-- Separated segments that a text begins with are read, and perhaps more. -/
theorem separated_prefix_moreSegments {segments : List (List Char)}
    (h : ∀ t ∈ segments, IsSegment t) {cs : List Char} (hcs : separated segments <+: cs) :
    ∀ {fuel : ℕ}, cs.length ≤ fuel → separated segments <+: (moreSegments fuel cs).1 := by
  induction segments generalizing cs with
  | nil => exact fun _ => List.nil_prefix
  | cons s segments ih =>
    intro fuel hfuel
    obtain ⟨hs, hsegments⟩ := List.forall_mem_cons.mp h
    obtain ⟨tail, rfl⟩ := hcs
    cases fuel with
    | zero => simp [separated, Name.separator] at hfuel
    | succ fuel =>
      have htext : separated (s :: segments) ++ tail =
          ':' :: ':' :: (s ++ (separated segments ++ tail)) := by
        simp [separated, Name.separator]
      rw [htext] at hfuel ⊢
      rw [moreSegments]
      simp only [segment?_append hs]
      cases segments with
      | nil => simp [separated, Name.separator]
      | cons t segments =>
        rw [takeWhile_separated, dropWhile_separated, List.append_nil]
        have hrest : (separated (t :: segments) ++ tail).length ≤ fuel := by
          simp only [List.length_cons, List.length_append] at hfuel ⊢
          omega
        have hmore := ih hsegments (List.prefix_append _ tail) hrest
        simpa [separated, Name.separator] using hmore

/-! ### Reading a name -/

/-- The name that the segments at the beginning of a text make with what stands in front of it, and
the rest. -/
def nameAfter? (lead body : List Char) : Option (List Char × List Char) :=
  match segment? body with
  | some (s, rest) =>
    let (more, rest) := moreSegments rest.length rest
    some (lead ++ s ++ more, rest)
  | none => none

theorem variableName?_separator (body : List Char) :
    variableName? (':' :: ':' :: body) = nameAfter? Name.separator body :=
  rfl

theorem variableName?_of_ne {cs : List Char} (h : ∀ rest, cs ≠ ':' :: ':' :: rest) :
    variableName? cs = nameAfter? [] cs := by
  unfold variableName?
  split
  next lead body heq =>
  split at heq
  · exact absurd rfl (h _)
  · cases heq
    rfl

theorem exists_of_nameAfter? {lead body name rest : List Char}
    (h : nameAfter? lead body = some (name, rest)) : ∃ s more, IsSegment s ∧
      (∀ t ∈ more, IsSegment t) ∧ name = lead ++ s ++ separated more ∧
      lead ++ body = name ++ rest := by
  unfold nameAfter? at h
  split at h
  · next s after hs =>
    obtain ⟨hsegment, rfl⟩ := exists_of_segment? hs
    obtain ⟨hafter, segments, hsegments, hmore⟩ :=
      exists_of_moreSegments (rfl : moreSegments after.length after = (_, _))
    cases h
    refine ⟨s, segments, hsegment, hsegments, by rw [hmore], ?_⟩
    conv_lhs => rw [hafter]
    simp
  · cases h

/-- What is read after the first segment begins with the segments that follow it. -/
theorem nameAfter?_of_prefix {s : List Char} {segments : List (List Char)} (hs : IsSegment s)
    (h : ∀ t ∈ segments, IsSegment t) (lead tail : List Char) : ∃ name rest,
      nameAfter? lead (s ++ (separated segments ++ tail)) = some (name, rest) ∧
      lead ++ s ++ separated segments <+: name := by
  rw [nameAfter?, segment?_append hs]
  refine ⟨_, _, rfl, ?_⟩
  rw [← List.append_assoc lead, List.append_assoc (lead ++ s)]
  refine (List.prefix_append_right_inj _).mpr ?_
  cases segments with
  | nil => exact List.nil_prefix
  | cons t segments =>
    rw [takeWhile_separated, dropWhile_separated]
    exact separated_prefix_moreSegments h (List.prefix_append _ _) le_rfl

theorem IsSegment.not_starts {s : List Char} (h : IsSegment s) (cs : List Char) :
    ∀ rest, s ++ cs ≠ ':' :: ':' :: rest := by
  obtain ⟨c, tail, rfl, hc, -⟩ := h
  intro rest heq
  obtain rfl : c = ':' := (List.cons.inj heq).1
  exact absurd hc (by decide)

theorem exists_of_variableName? {cs name rest : List Char}
    (h : variableName? cs = some (name, rest)) : IsVariableName name ∧ cs = name ++ rest := by
  by_cases hsep : ∃ body, cs = ':' :: ':' :: body
  · obtain ⟨body, rfl⟩ := hsep
    obtain ⟨s, more, hs, hmore, rfl, heq⟩ := exists_of_nameAfter? h
    exact ⟨⟨_, s, more, .inr rfl, hs, hmore, rfl⟩, heq⟩
  · rw [variableName?_of_ne (not_exists.mp hsep)] at h
    obtain ⟨s, more, hs, hmore, rfl, heq⟩ := exists_of_nameAfter? h
    exact ⟨⟨_, s, more, .inl rfl, hs, hmore, rfl⟩, heq⟩

/-- Where a text begins with a name, one is read that is as long or longer. -/
theorem variableName?_of_prefix {cs m : List Char} (hm : IsVariableName m) (h : m <+: cs) :
    ∃ name rest, variableName? cs = some (name, rest) ∧ m <+: name := by
  obtain ⟨lead, s, segments, hlead, hs, hsegments, rfl⟩ := hm
  obtain ⟨tail, rfl⟩ := h
  obtain ⟨name, rest, hread, hbegin⟩ := nameAfter?_of_prefix hs hsegments lead tail
  refine ⟨name, rest, ?_, hbegin⟩
  rw [← hread, List.append_assoc, List.append_assoc]
  rcases hlead with rfl | rfl
  · exact variableName?_of_ne (hs.not_starts _)
  · exact variableName?_separator _

theorem longest_of_variableName? {cs name rest : List Char}
    (h : variableName? cs = some (name, rest)) : IsLongestName name rest := by
  obtain ⟨hname, rfl⟩ := exists_of_variableName? h
  refine ⟨hname, fun w hne hw hlonger => ?_⟩
  obtain ⟨n, r, hread, hn⟩ := variableName?_of_prefix hlonger
    ((List.prefix_append_right_inj name).mpr hw)
  cases h.symm.trans hread
  have hlength := hn.length_le
  rw [List.length_append] at hlength
  exact hne (List.eq_nil_of_length_eq_zero (by omega))

/-- The longest name that a text begins with is read. -/
theorem variableName?_append {name rest : List Char} (h : IsLongestName name rest) :
    variableName? (name ++ rest) = some (name, rest) := by
  obtain ⟨n, r, hread, w, rfl⟩ := variableName?_of_prefix h.1 (List.prefix_append name rest)
  obtain ⟨hn, heq⟩ := exists_of_variableName? hread
  rw [List.append_assoc, List.append_cancel_left_eq] at heq
  have hw : w = [] := by
    by_contra hne
    exact h.2 w hne ⟨r, heq.symm⟩ hn
  subst hw
  rw [hread, heq, List.append_nil]
  rfl

/-! ## References -/

/-- A reference to a variable. -/
inductive IsReference : List Char → List Char → Prop
  | bare {name : List Char} : IsVariableName name → IsReference name ('$' :: name)
  | braced {name : List Char} : IsVariableName name →
      IsReference name ('$' :: '\x7b' :: (name ++ ['\x7d']))

/-- A text begins with a reference. -/
def StartsReference (cs : List Char) : Prop :=
  ∃ name slice, IsReference name slice ∧ slice <+: cs

/-- A reference stands somewhere in a text. -/
def ContainsReference (cs : List Char) : Prop :=
  ∃ name slice, IsReference name slice ∧ slice <:+: cs

theorem StartsReference.append {cs : List Char} (h : StartsReference cs) (rest : List Char) :
    StartsReference (cs ++ rest) := by
  obtain ⟨name, slice, hreference, hslice⟩ := h
  exact ⟨name, slice, hreference, hslice.trans (List.prefix_append cs rest)⟩

theorem StartsReference.exists_cons {cs : List Char} (h : StartsReference cs) :
    ∃ rest, cs = '$' :: rest := by
  obtain ⟨name, slice, hreference, tail, rfl⟩ := h
  cases hreference <;> exact ⟨_, rfl⟩

/-- A text contains a reference if a part of it from some place on begins with one. -/
theorem containsReference_iff {cs : List Char} :
    ContainsReference cs ↔ ∃ v, v ≠ [] ∧ v <:+ cs ∧ StartsReference v := by
  constructor
  · rintro ⟨name, slice, hreference, hslice⟩
    obtain ⟨v, hbegin, hend⟩ := List.infix_iff_prefix_suffix.mp hslice
    have hstarts : StartsReference v := ⟨name, slice, hreference, hbegin⟩
    obtain ⟨rest, rfl⟩ := hstarts.exists_cons
    exact ⟨_, List.cons_ne_nil _ _, hend, hstarts⟩
  · rintro ⟨v, -, hend, name, slice, hreference, hbegin⟩
    exact ⟨name, slice, hreference, List.infix_iff_prefix_suffix.mpr ⟨v, hbegin, hend⟩⟩

/-- A name in braces is read up to the closing one. -/
theorem variableName?_braced {name : List Char} (h : IsVariableName name) (rest : List Char) :
    variableName? (name ++ '\x7d' :: rest) = some (name, '\x7d' :: rest) := by
  refine variableName?_append ⟨h, fun w hne hw hlonger => ?_⟩
  obtain ⟨c, w, rfl⟩ := List.exists_cons_of_ne_nil hne
  obtain ⟨tail, heq⟩ := hw
  rw [(List.cons.inj heq).1] at hlonger
  exact hlonger.brace_not_mem (by simp)

theorem reference?_bare {name rest : List Char} (h : IsLongestName name rest) :
    reference? (name ++ rest) = some (name, rest) := by
  have hhead := h.1.head?_ne
  unfold reference?
  split
  · next tail heq =>
    rcases name with _ | ⟨c, name⟩
    · obtain ⟨lead, s, more, -, ⟨c, _, rfl, -⟩, -, hnil⟩ := h.1
      simp at hnil
    · rw [(List.cons.inj heq).1] at hhead
      exact absurd rfl hhead
  · exact variableName?_append h

theorem reference?_braced {name : List Char} (h : IsVariableName name) (rest : List Char) :
    reference? ('\x7b' :: (name ++ '\x7d' :: rest)) = some (name, rest) := by
  rw [reference?, variableName?_braced h]
  rfl

/-- What is read after a dollar sign is a reference, which is as long as it can be if it has no
braces. -/
theorem cases_of_reference? {cs name rest : List Char} (h : reference? cs = some (name, rest)) :
    (cs = name ++ rest ∧ IsLongestName name rest) ∨
      (cs = '\x7b' :: (name ++ '\x7d' :: rest) ∧ IsVariableName name) := by
  unfold reference? at h
  split at h
  · split at h
    · next hread =>
      cases h
      obtain ⟨hname, rfl⟩ := exists_of_variableName? hread
      exact .inr ⟨rfl, hname⟩
    · cases h
  · exact .inl ⟨(exists_of_variableName? h).2, longest_of_variableName? h⟩

/-- Every reference is read, or a longer one in its place. -/
theorem reference?_ne_none {cs : List Char} (h : StartsReference ('$' :: cs)) :
    reference? cs ≠ none := by
  obtain ⟨name, slice, hreference, hslice⟩ := h
  cases hreference with
  | bare hname =>
    have hbegin := (List.prefix_cons_inj '$').mp hslice
    obtain ⟨n, rest, hread, -⟩ := variableName?_of_prefix hname hbegin
    obtain ⟨-, rfl⟩ := exists_of_variableName? hread
    rw [reference?_bare (longest_of_variableName? hread)]
    exact Option.some_ne_none _
  | braced hname =>
    obtain ⟨tail, heq⟩ := (List.prefix_cons_inj '$').mp hslice
    rw [← heq, List.cons_append, List.append_assoc]
    exact (reference?_braced hname tail).symm ▸ Option.some_ne_none _

theorem reference?_eq_none {cs : List Char} (h : ¬StartsReference ('$' :: cs)) :
    reference? cs = none := by
  by_contra hne
  obtain ⟨⟨name, rest⟩, hread⟩ := Option.ne_none_iff_exists'.mp hne
  rcases cases_of_reference? hread with ⟨rfl, hname⟩ | ⟨rfl, hname⟩
  · exact h ⟨name, _, .bare hname.1, List.prefix_append _ rest⟩
  · exact h ⟨name, _, .braced hname, rest, by simp⟩

/-! ## Cutting a string -/

/-- A piece of a string as it is written. -/
inductive Piece
  | text (cs : List Char)
  | bare (name : List Char)
  | braced (name : List Char)

namespace Piece

/-- The characters of a piece. -/
def slice : Piece → List Char
  | text cs => cs
  | bare name => '$' :: name
  | braced name => '$' :: '\x7b' :: (name ++ ['\x7d'])

/-- What a piece stands for. -/
def part : Piece → Part
  | text cs => .text cs
  | bare name => .variable name
  | braced name => .variable name

/-- Whether a piece is no reference. -/
def isText : Piece → Bool
  | text _ => true
  | _ => false

end Piece

/-- The pieces of a text from the left: no reference begins in a piece that is a text, no text
follows another, and a name without braces is as long as it can be. -/
inductive Cut : List Char → List Piece → Prop
  | nil : Cut [] []
  | text {cs rest : List Char} {pieces : List Piece} : cs ≠ [] →
      (∀ v, v ≠ [] → v <:+ cs → ¬StartsReference (v ++ rest)) →
      (∀ p ∈ pieces.head?, p.isText = false) → Cut rest pieces →
      Cut (cs ++ rest) (.text cs :: pieces)
  | bare {name rest : List Char} {pieces : List Piece} : IsLongestName name rest →
      Cut rest pieces → Cut ('$' :: (name ++ rest)) (.bare name :: pieces)
  | braced {name rest : List Char} {pieces : List Piece} : IsVariableName name →
      Cut rest pieces → Cut ('$' :: '\x7b' :: (name ++ '\x7d' :: rest)) (.braced name :: pieces)

namespace Cut

variable {cs : List Char} {pieces : List Piece}

/-- The pieces of a text cover it. -/
theorem flatMap_slice (h : Cut cs pieces) : pieces.flatMap Piece.slice = cs := by
  induction h with
  | nil => rfl
  | text _ _ _ _ ih => rw [List.flatMap_cons, ih]; rfl
  | bare _ _ ih => rw [List.flatMap_cons, ih]; rfl
  | braced _ _ ih => rw [List.flatMap_cons, ih]; simp [Piece.slice]

theorem isVariableName (h : Cut cs pieces) {name : List Char}
    (hmem : .bare name ∈ pieces ∨ .braced name ∈ pieces) : IsVariableName name := by
  induction h with
  | nil => simp at hmem
  | text _ _ _ _ ih => exact ih (by simpa using hmem)
  | bare hname _ ih =>
    simp only [List.mem_cons, Piece.bare.injEq, reduceCtorEq, false_or] at hmem
    rcases hmem with (rfl | hmem) | hmem
    · exact hname.1
    · exact ih (.inl hmem)
    · exact ih (.inr hmem)
  | braced hname _ ih =>
    simp only [List.mem_cons, Piece.braced.injEq, reduceCtorEq, false_or] at hmem
    rcases hmem with hmem | rfl | hmem
    · exact ih (.inl hmem)
    · exact hname
    · exact ih (.inr hmem)

/-- A text piece is not empty, and no reference begins in it. -/
theorem text_alone (h : Cut cs pieces) {t : List Char} (ht : .text t ∈ pieces) :
    t ≠ [] ∧ Cut t [.text t] := by
  induction h with
  | nil => cases ht
  | @text t' rest pieces hne hfree _ _ ih =>
    rcases List.mem_cons.mp ht with heq | ht
    · cases heq
      have halone : Cut (t ++ []) [.text t] := .text hne (fun v hv hend hstarts =>
        hfree v hv hend (by simpa using hstarts.append rest)) (by simp) .nil
      exact ⟨hne, by simpa using halone⟩
    · exact ih ht
  | bare _ _ ih => exact ih (by simpa using ht)
  | braced _ _ ih => exact ih (by simpa using ht)

/-- What a cut ends with is a cut. -/
theorem exists_of_append {before after : List Piece} (h : Cut cs (before ++ after)) :
    ∃ rest, Cut rest after := by
  induction before generalizing cs with
  | nil => exact ⟨cs, h⟩
  | cons p before ih =>
    cases h with
    | text _ _ _ h => exact ih h
    | bare _ h => exact ih h
    | braced _ h => exact ih h

/-- Of two neighbours one is a reference. -/
theorem isText_next {before after : List Piece} {p q : Piece}
    (h : Cut cs (before ++ p :: q :: after)) (hp : p.isText = true) : q.isText = false := by
  obtain ⟨rest, h⟩ := h.exists_of_append
  cases h with
  | text _ _ hhead _ => exact hhead q rfl
  | bare _ _ => cases hp
  | braced _ _ => cases hp

/-- A name without braces is as long as it can be. -/
theorem longest {before after : List Piece} {name : List Char}
    (h : Cut cs (before ++ .bare name :: after)) :
    IsLongestName name (after.flatMap Piece.slice) := by
  obtain ⟨rest, h⟩ := h.exists_of_append
  cases h with
  | bare hname hafter => exact hafter.flatMap_slice ▸ hname

/-- No reference begins in a piece that is a text. -/
theorem not_startsReference {before after : List Piece} {t : List Char}
    (h : Cut cs (before ++ .text t :: after)) {v : List Char} (hne : v ≠ []) (hv : v <:+ t) :
    ¬StartsReference (v ++ after.flatMap Piece.slice) := by
  obtain ⟨rest, h⟩ := h.exists_of_append
  cases h with
  | text _ hfree _ hafter => exact hafter.flatMap_slice ▸ hfree v hne hv

/-! ### Reading finds the cut -/

theorem partsFrom_reference {fuel : ℕ} {cs name rest : List Char}
    (h : reference? cs = some (name, rest)) :
    partsFrom (fuel + 1) ('$' :: cs) = .variable name :: partsFrom fuel rest := by
  rw [partsFrom, if_pos rfl, h]

theorem partsFrom_char {fuel : ℕ} {c : Char} {cs : List Char} (h : ¬StartsReference (c :: cs)) :
    partsFrom (fuel + 1) (c :: cs) = pushChar c (partsFrom fuel cs) := by
  rw [partsFrom]
  split
  · next hc =>
    subst hc
    rw [reference?_eq_none h]
  · rfl

/-- Characters that no reference begins at are put before the parts of what follows them. -/
theorem partsFrom_text {t rest : List Char} {parts : List Part} (hne : t ≠ [])
    (hfree : ∀ v, v ≠ [] → v <:+ t → ¬StartsReference (v ++ rest))
    (hhead : ∀ p ∈ parts.head?, ∃ name, p = .variable name)
    (h : ∀ fuel, rest.length ≤ fuel → partsFrom fuel rest = parts) :
    ∀ fuel, (t ++ rest).length ≤ fuel → partsFrom fuel (t ++ rest) = .text t :: parts := by
  induction t with
  | nil => exact absurd rfl hne
  | cons c t ih =>
    rintro (_ | fuel) hfuel
    · simp at hfuel
    have hfuel : (t ++ rest).length ≤ fuel := Nat.le_of_succ_le_succ hfuel
    have hstart : ¬StartsReference (c :: (t ++ rest)) :=
      hfree (c :: t) (List.cons_ne_nil _ _) (List.suffix_refl _)
    rw [List.cons_append, partsFrom_char hstart]
    cases t with
    | nil =>
      rw [List.nil_append, h fuel hfuel]
      rcases parts with _ | ⟨p, parts⟩
      · rfl
      · obtain ⟨name, rfl⟩ := hhead p rfl
        rfl
    | cons d t =>
      rw [ih (List.cons_ne_nil _ _)
        (fun v hv hend => hfree v hv (hend.trans (List.suffix_cons c _))) fuel hfuel]
      rfl

theorem partsFrom_eq (h : Cut cs pieces) :
    ∀ fuel, cs.length ≤ fuel → partsFrom fuel cs = pieces.map Piece.part := by
  induction h with
  | nil => rintro (_ | fuel) - <;> rfl
  | text hne hfree hhead _ ih =>
    refine partsFrom_text hne hfree (fun p hp => ?_) ih
    rw [List.head?_map, Option.mem_def, Option.map_eq_some_iff] at hp
    obtain ⟨q, hq, rfl⟩ := hp
    have hq := hhead q hq
    cases q with
    | text => cases hq
    | bare name => exact ⟨name, rfl⟩
    | braced name => exact ⟨name, rfl⟩
  | bare hname _ ih =>
    rintro (_ | fuel) hfuel
    · simp at hfuel
    · rw [partsFrom_reference (reference?_bare hname), ih fuel (by simp at hfuel; omega)]
      rfl
  | braced hname _ ih =>
    rintro (_ | fuel) hfuel
    · simp at hfuel
    · rw [partsFrom_reference (reference?_braced hname _), ih fuel (by simp at hfuel; omega)]
      rfl

/-- Reading a text finds the parts of its cut, so that it has no other one. -/
theorem parts_eq (h : Cut cs pieces) : parts cs = pieces.map Piece.part :=
  h.partsFrom_eq cs.length le_rfl

/-- A character at which no reference begins is a text, if no text follows it. -/
theorem of_char {c : Char} (hfree : ¬StartsReference (c :: cs))
    (hhead : ∀ p ∈ pieces.head?, p.isText = false) (h : Cut cs pieces) :
    Cut (c :: cs) (.text [c] :: pieces) := by
  refine @text [c] cs pieces (List.cons_ne_nil c []) (fun v hv hend => ?_) hhead h
  rcases List.suffix_cons_iff.mp hend with rfl | hend
  · exact hfree
  · exact absurd (List.suffix_nil.mp hend) hv

/-- A character at which no reference begins is a text, with the text that follows it if there is
one. -/
theorem exists_cons {c : Char} (h : Cut cs pieces) (hfree : ¬StartsReference (c :: cs)) :
    ∃ pieces, Cut (c :: cs) pieces := by
  cases h with
  | nil => exact ⟨_, of_char hfree (by simp) .nil⟩
  | @text t rest pieces hne hbefore hhead hrest =>
    refine ⟨_, @text (c :: t) rest pieces (List.cons_ne_nil c t) (fun v hv hend => ?_) hhead hrest⟩
    rcases List.suffix_cons_iff.mp hend with rfl | hend
    · exact hfree
    · exact hbefore v hv hend
  | bare hname hrest => exact ⟨_, of_char hfree (by simp [Piece.isText]) (.bare hname hrest)⟩
  | braced hname hrest => exact ⟨_, of_char hfree (by simp [Piece.isText]) (.braced hname hrest)⟩

end Cut

/-- Every text has a cut. -/
theorem exists_cut (cs : List Char) : ∃ pieces, Cut cs pieces := by
  -- Induction on the length, as a reference may be longer than one character.
  induction hlength : cs.length using Nat.strong_induction_on generalizing cs with
  | _ n ih =>
    cases cs with
    | nil => exact ⟨[], .nil⟩
    | cons c rest =>
      by_cases hfree : StartsReference (c :: rest)
      · obtain ⟨tail, heq⟩ := hfree.exists_cons
        cases heq
        obtain ⟨⟨name, after⟩, hread⟩ :=
          Option.ne_none_iff_exists'.mp (reference?_ne_none hfree)
        rcases cases_of_reference? hread with ⟨rfl, hname⟩ | ⟨rfl, hname⟩
        · obtain ⟨pieces, hcut⟩ := ih after.length (by simp at hlength; omega) after rfl
          exact ⟨_, .bare hname hcut⟩
        · obtain ⟨pieces, hcut⟩ := ih after.length (by simp at hlength; omega) after rfl
          exact ⟨_, .braced hname hcut⟩
      · obtain ⟨pieces, hcut⟩ := ih rest.length (by simp at hlength; omega) rest rfl
        exact hcut.exists_cons hfree

end Interpolation

/-! ## The expression of a string -/

open Interpolation

/-- The expressions that an expression joins to a string, and any other expression by itself. -/
def Expr.joined : Expr → List Expr
  | .concat parts => parts
  | e => [e]

/-- The expression of a piece. -/
def Interpolation.Piece.expr (p : Piece) : Expr :=
  p.part.toExpr

/-- The expression of a string, by its pieces. -/
theorem interpolate_of_cut {s : String} {pieces : List Piece} (h : Cut s.toList pieces) :
    interpolate s = match pieces with
      | [] => .literal (.str "")
      | [p] => p.expr
      | pieces => .concat (pieces.map Piece.expr) := by
  rw [interpolate, h.parts_eq]
  match pieces with
  | [] => rfl
  | [p] => rfl
  | p :: q :: rest => simp [Piece.expr]

/-- A text without references is itself. -/
theorem interpolate_of_not_contains {s : String} (h : ¬ContainsReference s.toList) :
    interpolate s = .literal (.str s) := by
  by_cases hempty : s.toList = []
  · obtain rfl := String.toList_eq_nil_iff.mp hempty
    rfl
  · have hcut : Cut (s.toList ++ []) [.text s.toList] :=
      .text hempty (fun v hne hv hstarts => h (containsReference_iff.mpr
        ⟨v, hne, hv, by simpa using hstarts⟩)) (by simp) .nil
    rw [List.append_nil] at hcut
    rw [interpolate_of_cut hcut]
    simp [Piece.expr, Piece.part, Part.toExpr]

theorem Interpolation.IsReference.exists_cut {name slice : List Char}
    (h : IsReference name slice) : ∃ p, Cut slice [p] ∧ p.part = .variable name := by
  cases h with
  | bare hname =>
    have hcut : Cut ('$' :: (name ++ [])) [.bare name] :=
      .bare ⟨hname, fun w hne hw => absurd (List.prefix_nil.mp hw) hne⟩ .nil
    exact ⟨_, by simpa using hcut, rfl⟩
  | braced hname => exact ⟨_, .braced hname .nil, rfl⟩

/-- A string is a variable exactly if it is one reference to it. -/
theorem interpolate_eq_var_iff {s x : String} :
    interpolate s = .var x ↔ IsReference x.toList s.toList := by
  constructor
  · intro h
    obtain ⟨pieces, hcut⟩ := exists_cut s.toList
    rw [interpolate_of_cut hcut] at h
    have hcover := hcut.flatMap_slice
    match pieces, hcut with
    | [], _ => cases h
    | [.text t], _ => cases h
    | [.bare name], hcut =>
      cases h
      rw [← hcover, String.toList_ofList]
      simpa [Piece.slice] using IsReference.bare (hcut.isVariableName (.inl (by simp)))
    | [.braced name], hcut =>
      cases h
      rw [← hcover, String.toList_ofList]
      simpa [Piece.slice] using IsReference.braced (hcut.isVariableName (.inr (by simp)))
    | p :: q :: rest, _ => cases h
  · intro h
    obtain ⟨p, hcut, hp⟩ := h.exists_cut
    rw [interpolate_of_cut hcut]
    simp [Piece.expr, hp, Part.toExpr]

/-- A string is a constant exactly if it contains no reference. -/
theorem interpolate_eq_literal_iff {s : String} :
    (∃ v, interpolate s = .literal v) ↔ ¬ContainsReference s.toList := by
  refine ⟨?_, fun h => ⟨_, interpolate_of_not_contains h⟩⟩
  rintro ⟨v, h⟩ hcontains
  obtain ⟨pieces, hcut⟩ := exists_cut s.toList
  rw [interpolate_of_cut hcut] at h
  have hcover := hcut.flatMap_slice
  obtain ⟨u, hne, hu, hstarts⟩ := containsReference_iff.mp hcontains
  match pieces, hcut with
  | [], _ =>
    rw [← hcover] at hu
    exact hne (List.suffix_nil.mp hu)
  | [.text t], hcut =>
    have hend : u <:+ t := by simpa [← hcover, Piece.slice] using hu
    have hfree := @Cut.not_startsReference s.toList [] [] t hcut u hne hend
    exact hfree (by simpa using hstarts)
  | [.bare name], _ => cases h
  | [.braced name], _ => cases h
  | p :: q :: rest, _ => cases h

/-- How a string is taken apart. -/
structure Interpolation.TakenApart (s : String) (pieces : List Piece) : Prop where
  /-- The pieces cover the string in order. -/
  covers : pieces.flatMap Piece.slice = s.toList
  /-- They are what the expression of the string joins. -/
  joined : (interpolate s).joined = pieces.map Piece.expr
  names : ∀ name, .bare name ∈ pieces ∨ .braced name ∈ pieces → IsVariableName name
  texts : ∀ t, .text t ∈ pieces → t ≠ [] ∨ s = ""
  /-- No text follows a text. -/
  next : ∀ before p q after, pieces = before ++ p :: q :: after → p.isText = true →
    q.isText = false
  /-- A text on its own is itself. -/
  alone : ∀ t, .text t ∈ pieces →
    interpolate (String.ofList t) = .literal (.str (String.ofList t))
  /-- Nor does a reference begin in a text when it is read together with what follows. -/
  leftmost : ∀ before t after v, pieces = before ++ .text t :: after → v ≠ [] → v <:+ t →
    ¬StartsReference (v ++ after.flatMap Piece.slice)
  longest : ∀ before name after, pieces = before ++ .bare name :: after →
    IsLongestName name (after.flatMap Piece.slice)

theorem Interpolation.takenApart_empty : TakenApart "" [.text []] where
  covers := rfl
  joined := rfl
  names := by simp
  texts _ _ := .inr rfl
  next := by
    rintro (_ | ⟨_, _ | _⟩) p q after h <;> cases h
  alone := by simp [show interpolate "" = .literal (.str "") from rfl]
  leftmost := by
    rintro before t after v h hne hv -
    have ht : t = [] := by
      have hmem : Piece.text t ∈ [Piece.text []] := h ▸ by simp
      simpa using hmem
    exact hne (List.suffix_nil.mp (ht ▸ hv))
  longest := by
    rintro before name after h
    have hmem : Piece.bare name ∈ [Piece.text []] := h ▸ by simp
    simp at hmem

theorem Interpolation.Cut.takenApart {s : String} {pieces : List Piece}
    (h : Cut s.toList pieces) (hne : pieces ≠ []) : TakenApart s pieces where
  covers := h.flatMap_slice
  joined := by
    rw [interpolate_of_cut h]
    match pieces with
    | [] => exact absurd rfl hne
    | [p] => cases p <;> rfl
    | p :: q :: rest => rfl
  names _ := h.isVariableName
  texts t ht := .inl (h.text_alone ht).1
  next := by
    rintro before p q after rfl
    exact h.isText_next
  alone := by
    intro t ht
    have halone := (h.text_alone ht).2
    rw [← String.toList_ofList (l := t)] at halone
    rw [interpolate_of_cut halone]
    simp [Piece.expr, Piece.part, Part.toExpr]
  leftmost := by
    rintro before t after v rfl hv hend
    exact h.not_startsReference hv hend
  longest := by
    rintro before name after rfl
    exact h.longest

/-- The expression of a string takes it apart without loss, into texts without references and the
references between them; it is a variable exactly if the string is one reference, and a constant
exactly if there is none in it. -/
theorem interpolate_exact (s : String) : (∃ pieces, TakenApart s pieces) ∧
    (∀ x, interpolate s = .var x ↔ IsReference x.toList s.toList) ∧
    ((∃ v, interpolate s = .literal v) ↔ ¬ContainsReference s.toList) := by
  refine ⟨?_, fun _ => interpolate_eq_var_iff, interpolate_eq_literal_iff⟩
  obtain ⟨pieces, hcut⟩ := exists_cut s.toList
  by_cases hnil : pieces = []
  · have hs : s = "" := by
      rw [← String.toList_eq_nil_iff, ← hcut.flatMap_slice, hnil]
      rfl
    exact ⟨_, hs ▸ takenApart_empty⟩
  · exact ⟨pieces, hcut.takenApart hnil⟩

end SiteCatalog
