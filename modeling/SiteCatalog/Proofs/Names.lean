import Mathlib.Data.Bool.AllAny
import Mathlib.Data.Nat.Bitwise
import SiteCatalog.Registry

/-!
# Names in small letters

Taking the small letters of a text twice is taking them once, although the mapping of characters is
a table and the capital sigma looks at its neighbours: no small letter is in the table. Names that
have been normalized are therefore found under themselves.

Results:
* `lower_lower`: the small letters of a text are their own small letters.
* `normalize_normalize`, `lookupKey_normalize`: a normalized name stays as it is.
* `dropSeparators_nested_ne`: a name in a namespace is not the name on its own.
* `normalize_append_slash`: what follows a slash may be put into small letters first.
-/

namespace SiteCatalog

namespace Text

/-- What holds of the first code points holds of all characters of ASCII. -/
theorem forall_ascii {P : Char → Prop} (h : ∀ n < 128, P (Char.ofNat n)) (c : Char)
    (hc : c.toNat < 128) : P c := by
  have := h c.toNat hc
  rwa [Char.ofNat_toNat] at this

/-! ## The table of small letters -/

/-- The code points that a run maps. -/
def CaseRun.points (r : CaseRun) : List ℕ :=
  (List.range ((r.last - r.first) / r.stride + 1)).map fun k => r.first + k * r.stride

theorem CaseRun.exists_of_map? {runs : List CaseRun} {n m : ℕ} (h : map? runs n = some m) :
    ∃ r ∈ runs, n ∈ r.points ∧ m = (n + r.shift).toNat := by
  induction runs with
  | nil => cases h
  | cons r rest ih =>
    unfold map? at h
    split at h
    · cases h
    · next hfirst =>
      split at h
      · next hrun =>
        refine ⟨r, by simp, List.mem_map.mpr ⟨(n - r.first) / r.stride, ?_, ?_⟩,
          (Option.some.inj h).symm⟩
        · exact List.mem_range.mpr (Nat.lt_succ_of_le (Nat.div_le_div_right (by omega)))
        · have hdiv := Nat.div_add_mod (n - r.first) r.stride
          rw [hrun.2, Nat.mul_comm] at hdiv
          omega
      · obtain ⟨r', hr', hx⟩ := ih h
        exact ⟨r', by simp [hr'], hx⟩

/-- The number whose binary digits are one at the members of a list. -/
def mask : List ℕ → ℕ
  | [] => 0
  | n :: rest => 1 <<< n ||| mask rest

theorem testBit_mask {n : ℕ} {l : List ℕ} (h : n ∈ l) : (mask l).testBit n = true := by
  induction l with
  | nil => cases h
  | cons m rest ih =>
    rw [mask, Nat.testBit_or, Bool.or_eq_true]
    rcases List.mem_cons.mp h with rfl | h
    · exact .inl (by simp [Nat.one_shiftLeft, Nat.testBit_two_pow_self])
    · exact .inr (ih h)

/-- Lists whose masks have no digit in common have no member in common. -/
theorem not_mem_of_mask {l l' : List ℕ} (h : mask l &&& mask l' = 0) {n : ℕ} (hn : n ∈ l) :
    n ∉ l' := by
  intro hn'
  have hbit : (mask l &&& mask l').testBit n = true := by
    rw [Nat.testBit_and, testBit_mask hn, testBit_mask hn', Bool.and_self]
  rw [h, Nat.zero_testBit] at hbit
  cases hbit

/-- The code points that have a small letter. -/
def capitals : List ℕ :=
  0x130 :: lowerRuns.flatMap CaseRun.points

/-- The small letters of single capitals. -/
def smalls : List ℕ :=
  lowerRuns.flatMap fun r => r.points.map fun n : ℕ => (n + r.shift).toNat

/-- No small letter has a small letter. -/
theorem mask_smalls : mask smalls &&& mask capitals = 0 := by
  decide +kernel

/-- Small letters are characters, and they come after the colon. -/
theorem smalls_valid : ∀ n ∈ smalls, 0x3A < n ∧ (n < 0xD800 ∨ 0xDFFF < n ∧ n < 0x110000) := by
  decide +kernel

theorem mem_smalls_of_map? {n m : ℕ} (h : CaseRun.map? lowerRuns n = some m) : m ∈ smalls := by
  obtain ⟨r, hr, hn, rfl⟩ := CaseRun.exists_of_map? h
  exact List.mem_flatMap.mpr ⟨r, hr, List.mem_map.mpr ⟨n, hn, rfl⟩⟩

theorem mem_capitals_of_map? {n m : ℕ} (h : CaseRun.map? lowerRuns n = some m) :
    n ∈ capitals := by
  obtain ⟨r, hr, hn, -⟩ := CaseRun.exists_of_map? h
  exact List.mem_cons_of_mem _ (List.mem_flatMap.mpr ⟨r, hr, hn⟩)

/-! ## Small letters of texts -/

/-- A character that is its own small letter wherever it stands. -/
def IsSmall (c : Char) : Prop :=
  c ≠ 'Σ' ∧ lowerChar c = [c]

instance (c : Char) : Decidable (IsSmall c) :=
  inferInstanceAs (Decidable (_ ∧ _))

/-- The small letters of `İ` and `Σ`, and the signs between names, are small. -/
theorem isSmall_letters : ∀ c ∈ ['i', '\u0307', 'ς', 'σ', ':', '/'], IsSmall c :=
  List.all_iff_forall_prop.mp (by decide)

theorem lowerChar_colon : lowerChar ':' = [':'] :=
  (isSmall_letters ':' (by simp)).2

/-- Case rules look past a colon. -/
theorem isCaseIgnorable_colon : isCaseIgnorable ':' = true := by
  decide

theorem slash_separates : isCaseIgnorable '/' = false ∧ isCased '/' = false := by
  decide

theorem isSmall_of_not_mem {c : Char} (h : c.toNat ∉ capitals) : IsSmall c := by
  constructor
  · rintro rfl
    exact h (mem_capitals_of_map? (m := 0x3C3) (by decide))
  · have hdot : c.toNat ≠ 0x130 := fun heq => h (by rw [heq]; exact List.mem_cons_self)
    have hnone : CaseRun.map? lowerRuns c.toNat = none := by
      by_contra hne
      obtain ⟨m, hm⟩ := Option.ne_none_iff_exists'.mp hne
      exact h (mem_capitals_of_map? hm)
    rw [lowerChar, if_neg hdot, hnone]

/-- Small letters are small, and none of them is a colon unless it stands for itself. -/
theorem isSmall_of_mem_lowerChar {c x : Char} (hc : c ≠ 'Σ') (hx : x ∈ lowerChar c) :
    IsSmall x ∧ (x = ':' → c = ':') := by
  unfold lowerChar at hx
  split at hx
  · simp only [List.mem_cons, List.not_mem_nil, or_false] at hx
    rcases hx with rfl | rfl
    · exact ⟨isSmall_letters _ (by simp), fun h => absurd h (by decide)⟩
    · exact ⟨isSmall_letters _ (by simp), fun h => absurd h (by decide)⟩
  · next hdot =>
    split at hx
    · next n hn =>
      rw [List.mem_singleton] at hx
      subst hx
      have hmem := mem_smalls_of_map? hn
      obtain ⟨hgt, hvalid⟩ := smalls_valid n hmem
      have hnat : (Char.ofNat n).toNat = n := by
        rw [Char.ofNat, dif_pos hvalid]
        rfl
      refine ⟨isSmall_of_not_mem (by rw [hnat]; exact not_mem_of_mask mask_smalls hmem), ?_⟩
      intro heq
      have := congrArg Char.toNat heq
      rw [hnat] at this
      simp at this
      omega
    · next hnone =>
      rw [List.mem_singleton] at hx
      subst hx
      refine ⟨⟨hc, ?_⟩, id⟩
      rw [lowerChar, if_neg hdot, hnone]

theorem isSmall_of_mem_lowerAfter {cs : List Char} {x : Char} :
    ∀ {b : Bool}, x ∈ lowerAfter b cs → IsSmall x := by
  induction cs with
  | nil => exact fun h => nomatch h
  | cons c rest ih =>
    intro b hx
    unfold lowerAfter at hx
    rcases List.mem_append.mp hx with hx | hx
    · split at hx
      · rw [List.mem_singleton] at hx
        subst hx
        split <;> exact isSmall_letters _ (by simp)
      · next hc => exact (isSmall_of_mem_lowerChar hc hx).1
    · exact ih hx

/-- A text of small letters is its own small form. -/
theorem lowerAfter_of_isSmall {cs : List Char} (h : ∀ c ∈ cs, IsSmall c) :
    ∀ b, lowerAfter b cs = cs := by
  induction cs with
  | nil => exact fun _ => rfl
  | cons c rest ih =>
    intro b
    obtain ⟨hne, hlow⟩ := h c (by simp)
    rw [lowerAfter, if_neg hne, hlow, ih fun x hx => h x (by simp [hx])]
    rfl

@[simp] theorem lower_lower (cs : List Char) : lower (lower cs) = lower cs :=
  lowerAfter_of_isSmall (fun _ hx => isSmall_of_mem_lowerAfter hx) false

theorem lowerChar_ne_nil (c : Char) : lowerChar c ≠ [] := by
  unfold lowerChar
  split
  · exact List.cons_ne_nil _ _
  · split <;> exact List.cons_ne_nil _ _

/-- A colon in front of the small letters of a text stands there in the text. -/
theorem eq_cons_of_lowerAfter {b : Bool} {cs rest : List Char}
    (h : lowerAfter b cs = ':' :: rest) :
    ∃ cs' b', cs = ':' :: cs' ∧ lowerAfter b' cs' = rest := by
  cases cs with
  | nil => cases h
  | cons c cs' =>
    have hc : c = ':' := by
      unfold lowerAfter at h
      split at h
      · have hhead := (List.cons.inj h).1
        split at hhead <;> exact absurd hhead (by decide)
      · next hne =>
        obtain ⟨x, tail, hx⟩ := List.exists_cons_of_ne_nil (lowerChar_ne_nil c)
        rw [hx, List.cons_append] at h
        exact (isSmall_of_mem_lowerChar hne (hx ▸ List.mem_cons_self)).2 (List.cons.inj h).1
    subst hc
    refine ⟨cs', if isCaseIgnorable ':' then b else isCased ':', rfl, ?_⟩
    unfold lowerAfter at h
    rw [if_neg (by decide), lowerChar_colon] at h
    exact (List.cons.inj h).2

end Text

/-! ## Normalized names -/

namespace Name

open Text

theorem dropSeparators_of_not_starts {cs : List Char} (h : startsWithSeparator cs = false) :
    dropSeparators cs = cs := by
  unfold dropSeparators
  split
  · simp [startsWithSeparator] at h
  · rfl

theorem not_starts_dropSeparators (cs : List Char) :
    startsWithSeparator (dropSeparators cs) = false := by
  fun_induction dropSeparators cs with
  | case1 rest ih => exact ih
  | case2 cs hcs =>
    unfold startsWithSeparator
    split
    · next rest => exact absurd rfl (hcs rest)
    · rfl

theorem not_starts_lower {cs : List Char} (h : startsWithSeparator cs = false) :
    startsWithSeparator (lower cs) = false := by
  by_contra hne
  rw [Bool.not_eq_false] at hne
  unfold startsWithSeparator at hne
  split at hne
  · next rest hl =>
    obtain ⟨cs₁, b, rfl, hl₁⟩ := eq_cons_of_lowerAfter hl
    obtain ⟨cs₂, -, rfl, -⟩ := eq_cons_of_lowerAfter hl₁
    simp [startsWithSeparator] at h
  · cases hne

/-- A name that is normalized stays as it is. -/
@[simp] theorem normalize_normalize (s : String) : normalize (normalize s) = normalize s := by
  have hdrop := dropSeparators_of_not_starts
    (not_starts_lower (not_starts_dropSeparators s.toList))
  simp [normalize, hdrop]

theorem not_starts_normalize (s : String) : startsWithSeparator (normalize s).toList = false := by
  rw [normalize, String.toList_ofList]
  exact not_starts_lower (not_starts_dropSeparators s.toList)

theorem isSmall_of_mem_normalize {s : String} {c : Char} (h : c ∈ (normalize s).toList) :
    IsSmall c := by
  rw [normalize, String.toList_ofList] at h
  exact isSmall_of_mem_lowerAfter h

theorem normalize_eq_lowercase {s : String} (h : startsWithSeparator s.toList = false) :
    normalize s = lowercase s := by
  rw [normalize, dropSeparators_of_not_starts h, lowercase]

theorem lowercase_lowercase (s : String) : lowercase (lowercase s) = lowercase s := by
  rw [lowercase, lowercase, String.toList_ofList, lower_lower]

theorem startsWithSeparator_iff {cs : List Char} :
    startsWithSeparator cs = true ↔ ∃ rest, cs = ':' :: ':' :: rest := by
  unfold startsWithSeparator
  split
  · simp
  · next hne => exact iff_of_false (nomatch ·) fun ⟨rest, h⟩ => hne rest h

theorem not_starts_of_prefix {cs ds : List Char} (h : cs <+: ds)
    (hds : startsWithSeparator ds = false) : startsWithSeparator cs = false := by
  refine Bool.eq_false_iff.mpr fun hcs => ?_
  obtain ⟨rest, rfl⟩ := startsWithSeparator_iff.mp hcs
  obtain ⟨tail, rfl⟩ := h
  cases hds

/-! ### Names in namespaces -/

/-- What is dropped in front of a name is an even number of colons. -/
theorem exists_replicate_append_dropSeparators (cs : List Char) :
    ∃ k, List.replicate (2 * k) ':' ++ dropSeparators cs = cs := by
  fun_induction dropSeparators cs with
  | case1 cs ih =>
    obtain ⟨k, hk⟩ := ih
    exact ⟨k + 1, congrArg (':' :: ':' :: ·) hk⟩
  | case2 cs => exact ⟨0, rfl⟩

theorem toList_normalize_of_isSmall {s : String} (h : ∀ c ∈ s.toList, IsSmall c) :
    (normalize s).toList = dropSeparators s.toList := by
  obtain ⟨k, hk⟩ := exists_replicate_append_dropSeparators s.toList
  rw [normalize, String.toList_ofList]
  refine lowerAfter_of_isSmall (fun c hc => h c ?_) false
  rw [← hk]
  exact List.mem_append_right _ hc

/-- A name in a namespace is not the name on its own: for that the namespace would have to consist of
separators, of which a name that is normalized has none in front. -/
theorem dropSeparators_nested_ne {outer name : List Char} (hne : outer ≠ [])
    (houter : startsWithSeparator outer = false) :
    dropSeparators (outer ++ separator ++ name) ≠ name := by
  intro heq
  obtain ⟨k, hk⟩ := exists_replicate_append_dropSeparators (outer ++ separator ++ name)
  rw [heq] at hk
  have hcolons := List.append_cancel_right hk
  have hlength := congrArg List.length hcolons
  rw [List.length_replicate, List.length_append, separator, List.length_cons] at hlength
  rcases outer with _ | ⟨c, _ | ⟨c', outer⟩⟩
  · exact hne rfl
  · -- One colon and a separator are an odd number of colons.
    simp only [List.length_cons, List.length_nil] at hlength
    omega
  · have hmem : ∀ x ∈ c :: c' :: outer, x = ':' := fun x hx =>
      List.eq_of_mem_replicate (hcolons ▸ List.mem_append_left _ hx)
    rw [hmem c (by simp), hmem c' (by simp)] at houter
    cases houter

/-! ### Names with a slash -/

theorem dropSeparators_append_slash (cs : List Char) :
    ∃ ds, ∀ rest, dropSeparators (cs ++ '/' :: rest) = ds ++ '/' :: rest := by
  fun_induction dropSeparators cs with
  | case1 cs ih => exact ih
  | case2 cs hcs =>
    refine ⟨cs, fun rest => dropSeparators_of_not_starts (Bool.eq_false_iff.mpr fun h => ?_)⟩
    obtain ⟨tail, heq⟩ := startsWithSeparator_iff.mp h
    rcases cs with _ | ⟨c, _ | ⟨c', cs⟩⟩ <;> cases heq
    exact hcs cs rfl

theorem startsCased_append_slash (cs rest : List Char) :
    startsCased (cs ++ '/' :: rest) = startsCased (cs ++ ['/']) := by
  induction cs with
  | nil =>
    rw [List.nil_append, List.nil_append, startsCased, startsCased, slash_separates.1]
    rfl
  | cons c cs ih => rw [List.cons_append, List.cons_append, startsCased, startsCased, ih]

/-- A slash separates words: the small letters before and after it do not depend on each other. -/
theorem lowerAfter_append_slash (b : Bool) (cs rest : List Char) :
    lowerAfter b (cs ++ '/' :: rest) = lowerAfter b (cs ++ ['/']) ++ lower rest := by
  induction cs generalizing b with
  | nil =>
    have hslash : (if isCaseIgnorable '/' then b else isCased '/') = false := by
      rw [slash_separates.1, if_neg Bool.false_ne_true, slash_separates.2]
    rw [List.nil_append, List.nil_append, lowerAfter, lowerAfter, hslash, List.append_assoc]
    rfl
  | cons c cs ih =>
    rw [List.cons_append, List.cons_append, lowerAfter, lowerAfter, ih, startsCased_append_slash,
      List.append_assoc]

theorem normalize_append_slash (cs rest : List Char) :
    normalize (String.ofList (cs ++ '/' :: rest)) =
      normalize (String.ofList (cs ++ '/' :: lower rest)) := by
  obtain ⟨ds, hds⟩ := dropSeparators_append_slash cs
  rw [normalize, normalize, String.toList_ofList, String.toList_ofList, hds, hds, lower, lower,
    lowerAfter_append_slash _ ds rest, lowerAfter_append_slash _ ds (lower rest), lower_lower]

theorem normalize_slash (rest : List Char) :
    normalize (String.ofList ('/' :: rest)) = String.ofList ('/' :: lower rest) := by
  have hslash : lowerAfter false ['/'] = ['/'] :=
    lowerAfter_of_isSmall (by simpa using isSmall_letters '/' (by simp)) false
  have hrest := lowerAfter_append_slash false [] rest
  rw [List.nil_append, List.nil_append, hslash] at hrest
  rw [normalize, String.toList_ofList, dropSeparators_of_not_starts rfl, lower, hrest]
  rfl

end Name

/-- The name of a parent is kept as it is. -/
theorem Descriptor.parentName_parentName (parent : String) :
    parentName (parentName parent) = parentName parent := by
  by_cases hslash : parent.toList.head? = some '/'
  · have hname : parentName parent = parent := if_pos hslash
    rw [hname, hname]
  · have hname : parentName parent = Name.lowercase parent := if_neg hslash
    rw [hname, parentName, Name.lowercase_lowercase]
    exact ite_self _

namespace Registry

/-- A class is found under its own name. -/
@[simp] theorem lookupKey_normalize (s : String) :
    lookupKey (Name.normalize s) = Name.normalize s := by
  unfold lookupKey
  split
  · rfl
  · exact Name.normalize_normalize s

end Registry

end SiteCatalog
