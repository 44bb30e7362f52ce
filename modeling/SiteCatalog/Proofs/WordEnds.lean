import SiteCatalog.Proofs.Names

/-!
# Small letters of parts of a text

The small letter of a capital sigma depends on the text around it: on whether the nearest character
before it that case rules do not look past is cased, and on whether the nearest such character after
it is. So the small letters of a part of a text are known from the part and these two facts, and the
second one matters only for a part that ends in a capital sigma.

Letters that differ in case are all cased, and case rules look past none of them. So a text and its
small letters look the same to the text that follows.

Results:
* `isCased_of_mem`: characters with a small letter, and small letters, are cased.
* `lowerBetween_append`: the small letters of a text, part by part.
* `casedAfter_lowerBetween`: what follows a text cannot tell it from its small letters.
* `lowerBetween_eq_iff`: the small letters of a text depend on what follows it only if it ends in a
  sigma.
-/

namespace SiteCatalog.Text

/-! ## Cased characters -/

/-- The category that a run gives to a code point. -/
def CategoryRun.at (r : CategoryRun) (n : ℕ) : GeneralCategory :=
  if (n - r.first) % 2 = 0 then r.even else r.odd

/-- The code points of a run whose category has a property. -/
def CategoryRun.pointsWith (p : GeneralCategory → Bool) (r : CategoryRun) : List ℕ :=
  if p r.even && p r.odd then List.range' r.first (r.last + 1 - r.first)
  else if p r.even || p r.odd then
    (List.range' r.first (r.last + 1 - r.first)).filter fun n => p (r.at n)
  else []

/-- Runs stand in ascending order, from a code point on. -/
def CategoryRun.ascendFrom : ℕ → List CategoryRun → Bool
  | _, [] => true
  | n, r :: rest => n ≤ r.first && r.first ≤ r.last && ascendFrom (r.last + 1) rest

namespace CategoryRun

variable {runs : List CategoryRun} {r : CategoryRun} {n low : ℕ} {p : GeneralCategory → Bool}

theorem mem_pointsWith (h : n ∈ r.pointsWith p) :
    r.first ≤ n ∧ n ≤ r.last ∧ p (r.at n) = true := by
  unfold pointsWith at h
  split_ifs at h with hboth hone
  · obtain ⟨hfirst, hlast⟩ := List.mem_range'_1.mp h
    obtain ⟨heven, hodd⟩ := Bool.and_eq_true_iff.mp hboth
    refine ⟨hfirst, by omega, ?_⟩
    rw [CategoryRun.at]
    split <;> assumption
  · obtain ⟨hn, hp⟩ := List.mem_filter.mp h
    obtain ⟨hfirst, hlast⟩ := List.mem_range'_1.mp hn
    exact ⟨hfirst, by omega, hp⟩
  · cases h

theorem le_first_of_mem (h : ascendFrom low runs = true) (hr : r ∈ runs) : low ≤ r.first := by
  induction runs generalizing low with
  | nil => cases hr
  | cons r' rest ih =>
    simp only [ascendFrom, Bool.and_eq_true, decide_eq_true_eq] at h
    rcases List.mem_cons.mp hr with rfl | hr
    · exact h.1.1
    · have := ih h.2 hr
      omega

/-- A code point has the category that the run it stands in gives to it. -/
theorem lookup_of_mem (h : ascendFrom low runs = true) (hr : r ∈ runs) (hfirst : r.first ≤ n)
    (hlast : n ≤ r.last) : lookup runs n = r.at n := by
  induction runs generalizing low with
  | nil => cases hr
  | cons r' rest ih =>
    simp only [ascendFrom, Bool.and_eq_true, decide_eq_true_eq] at h
    rw [lookup]
    rcases List.mem_cons.mp hr with rfl | hr
    · rw [if_neg (by omega), if_pos hlast]
      rfl
    · have := le_first_of_mem h.2 hr
      rw [if_neg (by omega), if_neg (by omega)]
      exact ih h.2 hr

end CategoryRun

/-- The code points of a range. -/
def CharRange.points (r : CharRange) : List ℕ :=
  List.range' r.first (r.last + 1 - r.first)

theorem CharRange.mem_points_of_covers {ranges : List CharRange} {n : ℕ}
    (h : covers ranges n = true) : n ∈ ranges.flatMap points := by
  induction ranges with
  | nil => cases h
  | cons r rest ih =>
    rw [covers] at h
    rw [List.flatMap_cons, List.mem_append]
    split_ifs at h with hfirst hlast
    · exact .inl (List.mem_range'_1.mpr ⟨by omega, by omega⟩)
    · exact .inr (ih h)

theorem ascendFrom_categoryRuns : CategoryRun.ascendFrom 0 categoryRuns = true := by
  decide +kernel

/-- The code points of letters with a case. -/
def casedLetters : List ℕ :=
  categoryRuns.flatMap (CategoryRun.pointsWith GeneralCategory.isCasedLetter)

/-- The Roman numerals, and the letters in circles. -/
def casedSigns : List CharRange :=
  [⟨0x2160, 0x217F⟩, ⟨0x24B6, 0x24E9⟩]

/-- The members of a list whose mask adds no digit to that of another one are members of this. -/
theorem mem_of_mask {l l' : List ℕ} (h : mask l ||| mask l' = mask l') {n : ℕ} (hn : n ∈ l) :
    n ∈ l' := by
  have hbit : (mask l').testBit n = true := by
    rw [← h, Nat.testBit_or, testBit_mask hn, Bool.true_or]
  clear h hn
  induction l' with
  | nil => simp [mask] at hbit
  | cons m rest ih =>
    rw [mask, Nat.testBit_or, Bool.or_eq_true] at hbit
    rcases hbit with hbit | hbit
    · rw [Nat.one_shiftLeft, Nat.testBit_two_pow, decide_eq_true_eq] at hbit
      exact hbit ▸ List.mem_cons_self
    · exact List.mem_cons_of_mem _ (ih hbit)

/-- Capitals and small letters are letters with a case, numerals or letters in circles. -/
theorem mask_casedLetters : mask (smalls ++ capitals) |||
    mask (casedLetters ++ casedSigns.flatMap CharRange.points) =
      mask (casedLetters ++ casedSigns.flatMap CharRange.points) := by
  decide +kernel

/-- Numerals and letters in circles are cased, and each sort stands in one run of its category. -/
theorem casedSigns_cased : ∀ range ∈ casedSigns,
    (∀ n ∈ range.points, CharRange.covers otherCased n = true) ∧
      ∃ r ∈ symbolRuns, r.first ≤ range.first ∧ range.last ≤ r.last ∧
        ∀ c ∈ [r.even, r.odd], c = .nl ∨ c = .so := by
  decide +kernel

/-- Neither capitals nor small letters are among the signs that case rules look past. -/
theorem mask_otherCaseIgnorable :
    mask (smalls ++ capitals) &&& mask (otherCaseIgnorable.flatMap CharRange.points) = 0 := by
  decide +kernel

/-- Capitals and small letters are cased, and case rules do not look past them. -/
theorem isCased_of_mem {c : Char} (h : c.toNat ∈ smalls ++ capitals) :
    isCased c = true ∧ isCaseIgnorable c = false := by
  have hignorable : CharRange.covers otherCaseIgnorable c.toNat = false :=
    Bool.eq_false_iff.mpr fun hcovers =>
      not_mem_of_mask mask_otherCaseIgnorable h (CharRange.mem_points_of_covers hcovers)
  -- By its category a letter is cased and nothing to look past; the others are listed as cased, and
  -- their categories are not among those that are looked past.
  rcases List.mem_append.mp (mem_of_mask mask_casedLetters h) with hletter | hsign
  · obtain ⟨r, hr, hpoint⟩ := List.mem_flatMap.mp hletter
    obtain ⟨hfirst, hlast, hcased⟩ := CategoryRun.mem_pointsWith hpoint
    have hcategory : category c = r.at c.toNat :=
      CategoryRun.lookup_of_mem ascendFrom_categoryRuns hr hfirst hlast
    rw [← hcategory] at hcased
    refine ⟨by rw [isCased, hcased, Bool.true_or], ?_⟩
    rw [isCaseIgnorable, hignorable]
    revert hcased
    cases category c <;> decide
  · obtain ⟨range, hrange, hpoint⟩ := List.mem_flatMap.mp hsign
    obtain ⟨hcased, r, hr, hfirst, hlast, hsorts⟩ := casedSigns_cased range hrange
    have hbounds := List.mem_range'_1.mp hpoint
    have hrun : r ∈ categoryRuns := by simp [categoryRuns, hr]
    have hcategory : category c = r.at c.toNat :=
      CategoryRun.lookup_of_mem ascendFrom_categoryRuns hrun (by omega) (by omega)
    have hsort : category c = .nl ∨ category c = .so := by
      rw [hcategory, CategoryRun.at]
      split <;> exact hsorts _ (by simp)
    refine ⟨by rw [isCased, hcased _ hpoint, Bool.or_true], ?_⟩
    rw [isCaseIgnorable, hignorable]
    rcases hsort with hsort | hsort <;> rw [hsort]

/-- The forms of sigma, and an `i`, are cased, and case rules do not look past them. -/
theorem isCased_letters : ∀ c ∈ ['i', 'Σ', 'σ', 'ς'], isCased c = true ∧
    isCaseIgnorable c = false :=
  List.all_iff_forall_prop.mp (by decide)

theorem toNat_ofNat_of_mem_smalls {n : ℕ} (h : n ∈ smalls) : (Char.ofNat n).toNat = n := by
  rw [Char.ofNat, dif_pos (smalls_valid n h).2]
  rfl

/-! ## Parts of a text -/

/-- Whether the last character of a text that case rules do not look past is cased; `b` says so of
the text before it. -/
def casedAfter (b : Bool) : List Char → Bool
  | [] => b
  | c :: rest => casedAfter (if isCaseIgnorable c then b else isCased c) rest

/-- Whether the first character of a text that case rules do not look past is cased; `b` says so of
the text after it. -/
def casedBefore (b : Bool) : List Char → Bool
  | [] => b
  | c :: rest => if isCaseIgnorable c then casedBefore b rest else isCased c

/-- The small letters of a text between others, of which the one before it ends, and the one after it
starts, with a cased character or not. -/
def lowerBetween (before after : Bool) : List Char → List Char
  | [] => []
  | c :: rest =>
    (if c = 'Σ' then [if before && !casedBefore after rest then 'ς' else 'σ'] else lowerChar c)
      ++ lowerBetween (if isCaseIgnorable c then before else isCased c) after rest

variable {cs ds : List Char}

theorem startsCased_eq (cs : List Char) : startsCased cs = casedBefore false cs := by
  induction cs with
  | nil => rfl
  | cons c cs ih => rw [startsCased, ih, casedBefore]

theorem lowerAfter_eq (b : Bool) (cs : List Char) : lowerAfter b cs = lowerBetween b false cs := by
  induction cs generalizing b with
  | nil => rfl
  | cons c cs ih => rw [lowerAfter, ih, startsCased_eq, lowerBetween]

theorem casedAfter_append (b : Bool) (cs ds : List Char) :
    casedAfter b (cs ++ ds) = casedAfter (casedAfter b cs) ds := by
  induction cs generalizing b with
  | nil => rfl
  | cons c cs ih => exact ih _

theorem casedBefore_append (b : Bool) (cs ds : List Char) :
    casedBefore b (cs ++ ds) = casedBefore (casedBefore b ds) cs := by
  induction cs with
  | nil => rfl
  | cons c cs ih => rw [List.cons_append, casedBefore, ih, casedBefore]

/-- The small letters of a text are those of its parts. -/
theorem lowerBetween_append (before after : Bool) (cs ds : List Char) :
    lowerBetween before after (cs ++ ds) =
      lowerBetween before (casedBefore after ds) cs ++
        lowerBetween (casedAfter before cs) after ds := by
  induction cs generalizing before with
  | nil => rfl
  | cons c cs ih =>
    rw [List.cons_append, lowerBetween, ih, casedBefore_append, lowerBetween, casedAfter,
      List.append_assoc]

/-! ### Separators -/

/-- Case rules look past a separator. -/
theorem casedBefore_separator (b : Bool) (cs : List Char) :
    casedBefore b (':' :: ':' :: cs) = casedBefore b cs := by
  rw [casedBefore, if_pos isCaseIgnorable_colon, casedBefore, if_pos isCaseIgnorable_colon]

theorem casedAfter_separator (b : Bool) (cs : List Char) :
    casedAfter b (':' :: ':' :: cs) = casedAfter b cs := by
  rw [casedAfter, if_pos isCaseIgnorable_colon, casedAfter, if_pos isCaseIgnorable_colon]

theorem lowerBetween_separator (before after : Bool) (cs : List Char) :
    lowerBetween before after (':' :: ':' :: cs) = ':' :: ':' :: lowerBetween before after cs := by
  rw [lowerBetween, lowerBetween, if_neg (by decide), if_pos isCaseIgnorable_colon,
    if_pos isCaseIgnorable_colon, lowerChar_colon]
  rfl

/-! ### Small letters -/

theorem isSmall_of_mem_lowerBetween {before after : Bool} {x : Char}
    (h : x ∈ lowerBetween before after cs) : IsSmall x := by
  have hstarts : casedBefore false (if after then ['i'] else []) = after := by
    obtain ⟨hcased, hignorable⟩ := isCased_letters 'i' (by simp)
    cases after
    · rfl
    · rw [if_pos rfl, casedBefore, hignorable, hcased]
      rfl
  have hmem : x ∈ lowerAfter before (cs ++ if after then ['i'] else []) := by
    rw [lowerAfter_eq, lowerBetween_append, hstarts]
    exact List.mem_append_left _ h
  exact isSmall_of_mem_lowerAfter hmem

/-- No letter has a small letter among digits and the signs in front of them. -/
theorem eq_of_mem_lowerChar {c x : Char} (hx : x ∈ lowerChar c) (hsign : x.toNat ≤ 0x3A) :
    x = c := by
  unfold lowerChar at hx
  split at hx
  · simp only [List.mem_cons, List.not_mem_nil, or_false] at hx
    rcases hx with rfl | rfl <;> exact absurd hsign (by decide)
  · split at hx
    · next n hn =>
      obtain ⟨hgt, hvalid⟩ := smalls_valid n (mem_smalls_of_map? hn)
      rw [List.mem_singleton.mp hx, toNat_ofNat_of_mem_smalls (mem_smalls_of_map? hn)] at hsign
      omega
    · exact List.mem_singleton.mp hx

/-- A digit or a sign in front of the digits that starts the small letters of a text starts the
text. -/
theorem head?_of_head?_lowerBetween {before after : Bool} {x : Char}
    (h : (lowerBetween before after cs).head? = some x) (hsign : x.toNat ≤ 0x3A) :
    cs.head? = some x := by
  cases cs with
  | nil => cases h
  | cons c cs =>
    rw [lowerBetween] at h
    split at h
    · rw [List.singleton_append, List.head?_cons, Option.some.injEq] at h
      subst h
      split at hsign <;> exact absurd hsign (by decide)
    · obtain ⟨y, ys, hy⟩ := List.exists_cons_of_ne_nil (lowerChar_ne_nil c)
      rw [hy, List.cons_append, List.head?_cons, Option.some.injEq] at h
      subst h
      rw [eq_of_mem_lowerChar (hy ▸ List.mem_cons_self) hsign]
      rfl

theorem mem_of_mem_lowerBetween {before after : Bool} {x : Char}
    (h : x ∈ lowerBetween before after cs) (hsign : x.toNat ≤ 0x3A) : x ∈ cs := by
  induction cs generalizing before with
  | nil => cases h
  | cons c cs ih =>
    rw [lowerBetween, List.mem_append] at h
    rcases h with h | h
    · split at h
      · rw [List.mem_singleton.mp h] at hsign
        split at hsign <;> exact absurd hsign (by decide)
      · rw [eq_of_mem_lowerChar h hsign]
        exact List.mem_cons_self
    · exact List.mem_cons_of_mem _ (ih h)

theorem lowerBetween_of_isSmall (h : ∀ c ∈ cs, IsSmall c) (before after : Bool) :
    lowerBetween before after cs = cs := by
  induction cs generalizing before with
  | nil => rfl
  | cons c cs ih =>
    obtain ⟨hne, hlow⟩ := h c List.mem_cons_self
    rw [lowerBetween, if_neg hne, hlow, ih fun x hx => h x (List.mem_cons_of_mem _ hx)]
    rfl

theorem casedAfter_singleton {c : Char} (h : isCased c = true ∧ isCaseIgnorable c = false)
    (b : Bool) : casedAfter b [c] = true := by
  obtain ⟨hcased, hignorable⟩ := h
  rw [casedAfter, hignorable, if_neg Bool.false_ne_true, hcased, casedAfter]

/-- A letter and its small letter are both cased. -/
theorem casedAfter_lowerChar (b : Bool) (c : Char) :
    casedAfter b (lowerChar c) = casedAfter b [c] := by
  unfold lowerChar
  split
  · next hdot =>
    have hcapital : c.toNat ∈ smalls ++ capitals := by
      rw [hdot]
      exact List.mem_append_right _ List.mem_cons_self
    rw [casedAfter_singleton (isCased_of_mem hcapital)]
    cases b <;> decide
  · split
    · next n hn =>
      have hsmall := mem_smalls_of_map? hn
      have hcased : (Char.ofNat n).toNat ∈ smalls ++ capitals := by
        rw [toNat_ofNat_of_mem_smalls hsmall]
        exact List.mem_append_left _ hsmall
      rw [casedAfter_singleton (isCased_of_mem hcased), casedAfter_singleton
        (isCased_of_mem (List.mem_append_right _ (mem_capitals_of_map? hn)))]
    · rfl

/-- What follows a text cannot tell it from its small letters. -/
theorem casedAfter_lowerBetween (b before after : Bool) (cs : List Char) :
    casedAfter b (lowerBetween before after cs) = casedAfter b cs := by
  induction cs generalizing b before with
  | nil => rfl
  | cons c cs ih =>
    have hhead : casedAfter b (if c = 'Σ' then
        [if before && !casedBefore after cs then 'ς' else 'σ'] else lowerChar c) =
          casedAfter b [c] := by
      split
      · next hc =>
        subst hc
        rw [casedAfter_singleton (isCased_letters 'Σ' (by simp))]
        split <;> exact casedAfter_singleton (isCased_letters _ (by simp)) b
      · exact casedAfter_lowerChar b c
    rw [lowerBetween, casedAfter_append, hhead, ih]
    rfl

/-! ## Sigmas at the end -/

/-- A text ends in a capital sigma that ends a word, up to characters that case rules look past; `b`
says whether it follows a cased character. -/
def EndsInSigma (b : Bool) (cs : List Char) : Prop :=
  ∃ before after, cs = before ++ 'Σ' :: after ∧ (∀ c ∈ after, isCaseIgnorable c = true) ∧
    casedAfter b before = true

theorem casedBefore_eq_iff (cs : List Char) :
    casedBefore true cs = casedBefore false cs ↔ ∃ c ∈ cs, isCaseIgnorable c = false := by
  induction cs with
  | nil => simp [casedBefore]
  | cons c cs ih =>
    cases hc : isCaseIgnorable c <;> simp [casedBefore, hc, ih]

theorem endsInSigma_cons {b : Bool} {c : Char} : EndsInSigma b (c :: cs) ↔
    (c = 'Σ' ∧ b = true ∧ ∀ x ∈ cs, isCaseIgnorable x = true) ∨
      EndsInSigma (if isCaseIgnorable c then b else isCased c) cs := by
  constructor
  · rintro ⟨_ | ⟨x, before⟩, after, heq, hafter, hbefore⟩
    · cases heq
      exact .inl ⟨rfl, hbefore, hafter⟩
    · cases heq
      exact .inr ⟨before, after, rfl, hafter, hbefore⟩
  · rintro (⟨rfl, rfl, hafter⟩ | ⟨before, after, rfl, hafter, hbefore⟩)
    · exact ⟨[], cs, rfl, hafter, rfl⟩
    · exact ⟨c :: before, after, rfl, hafter, hbefore⟩

/-- The small letter of a first character depends on what follows the text only if the character is
a sigma, and nothing but characters that case rules look past stands between. -/
theorem lowerBetween_head_eq_iff (b : Bool) (c : Char) (cs : List Char) :
    (if c = 'Σ' then [if b && !casedBefore true cs then 'ς' else 'σ'] else lowerChar c) =
      (if c = 'Σ' then [if b && !casedBefore false cs then 'ς' else 'σ'] else lowerChar c) ↔
        ¬(c = 'Σ' ∧ b = true ∧ ∀ x ∈ cs, isCaseIgnorable x = true) := by
  have hall : (∀ x ∈ cs, isCaseIgnorable x = true) ↔
      casedBefore true cs ≠ casedBefore false cs := by
    simp [casedBefore_eq_iff]
  rw [hall]
  by_cases hc : c = 'Σ'
  · simp only [hc, if_true, true_and]
    cases b <;> cases casedBefore true cs <;> cases casedBefore false cs <;> decide
  · simp only [hc, if_false, false_and, not_false_eq_true]

/-- What follows a text matters for its small letters only if it ends in a sigma. -/
theorem lowerBetween_eq_iff (b : Bool) (cs : List Char) :
    lowerBetween b true cs = lowerBetween b false cs ↔ ¬EndsInSigma b cs := by
  induction cs generalizing b with
  | nil => exact iff_of_true rfl fun ⟨before, after, h, _⟩ => by cases before <;> cases h
  | cons c cs ih =>
    rw [lowerBetween, lowerBetween, endsInSigma_cons, not_or, ← ih, ← lowerBetween_head_eq_iff]
    constructor
    · intro h
      exact List.append_inj h (by split <;> rfl)
    · rintro ⟨hhead, htail⟩
      rw [hhead, htail]

end SiteCatalog.Text
