import SiteCatalog.Proofs.TypeNames

/-!
# The tag of a tag

Resources are tagged with the capitalised small letters of the name of their type, and they are
found under the tag of their tag. For most names that is the same: a capital comes from its small
letter again. It is not where a segment begins with a letter whose capital is written with several
capitals, such as `ß`, of which only the first is kept.

Results:
* `Name.capitalizeFrom`, `Name.toList_tag`: the capitalised form of a text, from left to right.
* `Text.exists_upperChar`: what the capital of a small letter is, and what its small letters are.
* `Name.tag_tag_iff`: which names have the tag of their tag.
* `Name.tag_tag_eq_iff`: names that differ in case and leading separators have one tag of their tags
  exactly if they have as many leading separators.
-/

namespace SiteCatalog

namespace Text

/-! ## Small letters of capitals -/

/-- A run begins after another has ended. -/
def CaseRun.Before (r s : CaseRun) : Prop :=
  r.first ≤ s.first ∧ r.last < s.first

instance (r s : CaseRun) : Decidable (r.Before s) :=
  inferInstanceAs (Decidable (_ ∧ _))

instance : Trans CaseRun.Before CaseRun.Before CaseRun.Before where
  trans h h' := ⟨h.1.trans h'.1, h.2.trans_le h'.1⟩

/-- Every code point of a run is mapped by it. -/
theorem CaseRun.map?_of_mem {runs : List CaseRun} (h : runs.Pairwise CaseRun.Before) {r : CaseRun}
    (hr : r ∈ runs) {n : ℕ} (hfirst : r.first ≤ n) (hlast : n ≤ r.last)
    (hstride : (n - r.first) % r.stride = 0) :
    map? runs n = some (n + r.shift).toNat := by
  induction runs with
  | nil => cases hr
  | cons s rest ih =>
    obtain ⟨hs, hrest⟩ := List.pairwise_cons.mp h
    rw [map?]
    rcases List.mem_cons.mp hr with rfl | hr
    · rw [if_neg (Nat.not_lt.mpr hfirst), if_pos ⟨hlast, hstride⟩]
    · obtain ⟨hle, hlt⟩ := hs r hr
      rw [if_neg (by omega), if_neg (by omega)]
      exact ih hrest hr

/-- One run maps all code points back to which another one maps something. -/
def CaseRun.inverts (s r : CaseRun) : Bool :=
  let first := (r.first + r.shift).toNat
  (r.last + r.shift).toNat ≤ s.last && s.first ≤ first && 0 < s.first && r.first ≤ r.last &&
    s.shift = -r.shift && (first - s.first) % s.stride = 0 && r.stride % s.stride = 0

theorem CaseRun.map?_of_inverts {runs : List CaseRun} (h : runs.Pairwise CaseRun.Before)
    {r s : CaseRun} (hs : s ∈ runs) (hinverts : s.inverts r) {n : ℕ} (hn : n ∈ r.points) :
    s.first ≤ ((n : ℤ) + r.shift).toNat ∧ ((n : ℤ) + r.shift).toNat ≤ s.last ∧
      map? runs ((n : ℤ) + r.shift).toNat = some n := by
  simp only [inverts, Bool.and_eq_true, decide_eq_true_eq] at hinverts
  obtain ⟨⟨⟨⟨⟨⟨hlast, hfirst⟩, hpos⟩, hle⟩, hshift⟩, hstart⟩, hstride⟩ := hinverts
  obtain ⟨k, hk, rfl⟩ := List.mem_map.mp hn
  have hbound : k * r.stride ≤ r.last - r.first :=
    (Nat.mul_le_mul_right _ (Nat.le_of_lt_succ (List.mem_range.mp hk))).trans
      (Nat.div_mul_le_self _ _)
  have hsplit : (((r.first + k * r.stride : ℕ) : ℤ) + r.shift).toNat - s.first =
      ((r.first + r.shift).toNat - s.first) + k * r.stride := by
    omega
  have hmod : ((((r.first + k * r.stride : ℕ) : ℤ) + r.shift).toNat - s.first) % s.stride = 0 := by
    rw [hsplit]
    exact Nat.mod_eq_zero_of_dvd (Nat.dvd_add (Nat.dvd_of_mod_eq_zero hstart)
      ((Nat.dvd_of_mod_eq_zero hstride).mul_left k))
  refine ⟨by omega, by omega, ?_⟩
  rw [map?_of_mem h hs (by omega) (by omega) hmod, hshift]
  congr 1
  omega

/-- The small letters of a character, wherever it stands. -/
def smallForms (c : Char) : List (List Char) :=
  if c = 'Σ' then [['ς'], ['σ']] else [lowerChar c]

theorem exists_smallForm (b : Bool) (c : Char) (rest : List Char) :
    ∃ form ∈ smallForms c, ∃ b', lowerAfter b (c :: rest) = form ++ lowerAfter b' rest := by
  rw [lowerAfter, smallForms]
  split
  · split
    · exact ⟨['ς'], by simp, _, rfl⟩
    · exact ⟨['σ'], by simp, _, rfl⟩
  · exact ⟨lowerChar c, by simp, _, rfl⟩

instance (c : Char) : Decidable (IsSmall c) :=
  inferInstanceAs (Decidable (_ ∧ _))

theorem smallForms_of_isSmall {c : Char} (h : IsSmall c) : smallForms c = [[c]] := by
  rw [smallForms, if_neg h.1, h.2]

theorem isSmall_of_smallForms {c : Char} (h : smallForms c = [[c]]) : IsSmall c := by
  rw [smallForms] at h
  split at h
  · cases h
  · next hne => exact ⟨hne, (List.cons.inj h).1⟩

/-- A capital that is the capital of its small letters, which are single characters. -/
def Recased (u : Char) : Prop :=
  ∀ form ∈ smallForms u, ∃ v, form = [v] ∧ upperChar v = [u]

/-- Whether a capital is the capital of its small letters. -/
def recases (u : Char) : Bool :=
  (smallForms u).all fun form => form.any (fun v => form = [v] && upperChar v = [u])

theorem recased_of_recases {u : Char} (h : recases u = true) : Recased u := by
  intro form hform
  have hany := List.all_eq_true.mp h form hform
  obtain ⟨v, -, hv⟩ := List.any_eq_true.mp hany
  rw [Bool.and_eq_true, decide_eq_true_eq, decide_eq_true_eq] at hv
  exact ⟨v, hv⟩

/-! ### The tables -/

/-- The runs of small letters are in ascending order and do not interleave. -/
theorem pairwise_lowerRuns : lowerRuns.Pairwise CaseRun.Before := by
  have hchain : lowerRuns.IsChain CaseRun.Before := by
    decide +kernel
  exact hchain.pairwise

/-- What has a small letter is a character. -/
theorem lowerRuns_valid : ∀ r ∈ lowerRuns,
    r.last < 0xD800 ∨ 0xDFFF < r.first ∧ r.last < 0x110000 := by
  decide +kernel

/-- A run of capitals is inverted by one of small letters, or else all its capitals are the capitals
of their small letters. -/
theorem upperRuns_recased : ∀ r ∈ upperRuns, (∃ s ∈ lowerRuns, s.inverts r = true) ∨
    ∀ p ∈ r.points, recases (Char.ofNat ((p : ℤ) + r.shift).toNat) = true ∧
      Char.ofNat ((p : ℤ) + r.shift).toNat ≠ ':' := by
  have hall : (upperRuns.all fun r => lowerRuns.any (·.inverts r) || r.points.all fun p =>
      recases (Char.ofNat ((p : ℤ) + r.shift).toNat) &&
        Char.ofNat ((p : ℤ) + r.shift).toNat ≠ ':') = true := by
    decide +kernel
  intro r hr
  simpa using List.all_eq_true.mp hall r hr

/-- Where a capital is written with several, the first is the capital of its small letters, and each
of the others has one character as its small letter. -/
theorem upperExpansions_recased : ∀ e ∈ upperExpansions, ∃ n ns, e.2 = n :: ns ∧
    recases (Char.ofNat n) = true ∧ Char.ofNat n ≠ ':' ∧
    ∀ m ∈ ns, Char.ofNat m ≠ ':' ∧ ∃ y, smallForms (Char.ofNat m) = [[y]] := by
  have hall : ∀ e ∈ upperExpansions, e.2 ≠ [] ∧
      (∀ n ∈ e.2.head?, recases (Char.ofNat n) = true ∧ Char.ofNat n ≠ ':') ∧
      ∀ m ∈ e.2.tail, Char.ofNat m ≠ ':' ∧ Char.ofNat m ≠ 'Σ' ∧
        (lowerChar (Char.ofNat m)).length = 1 := by
    decide +kernel
  intro e he
  obtain ⟨hne, hhead, htail⟩ := hall e he
  obtain ⟨n, ns, heq⟩ := List.exists_cons_of_ne_nil hne
  rw [heq] at hhead htail
  obtain ⟨hrecases, hcolon⟩ := hhead n rfl
  refine ⟨n, ns, heq, hrecases, hcolon, fun m hm => ?_⟩
  obtain ⟨hcolon', hsigma, hlength⟩ := htail m hm
  obtain ⟨y, hy⟩ := List.length_eq_one_iff.mp hlength
  exact ⟨hcolon', y, by rw [smallForms, if_neg hsigma, hy]⟩

/-- A colon is neither a capital nor a small letter. -/
theorem upperChar_colon : upperChar ':' = [':'] := by
  decide

/-- A capital that a run leads to is the capital of its small letters, and no colon. -/
theorem recased_of_run {c : Char} {r : CaseRun} (hr : r ∈ upperRuns) (hp : c.toNat ∈ r.points)
    (hupper : upperChar c = [Char.ofNat (c.toNat + r.shift).toNat]) :
    Recased (Char.ofNat (c.toNat + r.shift).toNat) ∧
      Char.ofNat (c.toNat + r.shift).toNat ≠ ':' := by
  rcases upperRuns_recased r hr with ⟨s, hs, hinverts⟩ | hall
  · obtain ⟨hfirst, hlast, hback⟩ := CaseRun.map?_of_inverts pairwise_lowerRuns hs hinverts hp
    generalize ((c.toNat : ℤ) + r.shift).toNat = m at hupper hfirst hlast hback ⊢
    have hm : (Char.ofNat m).toNat = m := by
      rw [Char.ofNat, dif_pos]
      · rfl
      · have hvalid := lowerRuns_valid s hs
        unfold Nat.isValidChar
        omega
    have hne : ∀ k, CaseRun.map? lowerRuns k = none → m ≠ k := by
      rintro k hk rfl
      rw [hback] at hk
      cases hk
    constructor
    · by_cases hsigma : Char.ofNat m = 'Σ'
      · rw [hsigma]
        exact recased_of_recases (by decide)
      · have hlower : lowerChar (Char.ofNat m) = [c] := by
          rw [lowerChar, hm, if_neg (hne 0x130 (by decide)), hback]
          exact congrArg (fun c => [c]) (Char.ofNat_toNat c)
        rw [Recased, smallForms, if_neg hsigma, hlower]
        intro form hform
        exact ⟨c, List.mem_singleton.mp hform, hupper⟩
    · intro hcolon
      have hpoint := congrArg Char.toNat hcolon
      rw [hm] at hpoint
      exact hne _ (by decide) hpoint
  · exact (hall _ hp).imp_left recased_of_recases

/-- The capital of a small letter begins with a capital of its own small letters. What follows, if
it is written with several, has single characters as small letters. Nothing but a colon is written
with a colon. -/
theorem exists_upperChar {c : Char} (hc : IsSmall c) : ∃ u us, upperChar c = u :: us ∧ Recased u ∧
    (u = ':' → c = ':') ∧ ∀ x ∈ us, x ≠ ':' ∧ ∃ y, smallForms x = [[y]] := by
  cases hexpansion : upperExpansions.lookup c.toNat with
  | some ns =>
    obtain ⟨front, back, hentry, -⟩ := List.lookup_eq_some_iff.mp hexpansion
    obtain ⟨n, ns', heq, hrecases, hcolon, hrest⟩ :=
      upperExpansions_recased (c.toNat, ns) (by simp [hentry])
    dsimp only at heq
    refine ⟨Char.ofNat n, ns'.map Char.ofNat, ?_, recased_of_recases hrecases,
      fun h => absurd h hcolon, ?_⟩
    · rw [upperChar, hexpansion, heq]
      rfl
    · intro x hx
      obtain ⟨m, hm, rfl⟩ := List.mem_map.mp hx
      exact hrest m hm
  | none =>
    cases hrun : CaseRun.map? upperRuns c.toNat with
    | none =>
      have hupper : upperChar c = [c] := by rw [upperChar, hexpansion, hrun]
      refine ⟨c, [], hupper, ?_, id, fun _ hx => absurd hx List.not_mem_nil⟩
      rw [Recased, smallForms_of_isSmall hc]
      intro form hform
      exact ⟨c, List.mem_singleton.mp hform, hupper⟩
    | some n =>
      have hupper : upperChar c = [Char.ofNat n] := by rw [upperChar, hexpansion, hrun]
      obtain ⟨r, hr, hp, rfl⟩ := CaseRun.exists_of_map? hrun
      obtain ⟨hrecased, hcolon⟩ := recased_of_run hr hp hupper
      exact ⟨_, [], hupper, hrecased, fun h => absurd h hcolon,
        fun _ hx => absurd hx List.not_mem_nil⟩

/-- Only a colon has a colon as its small letter. -/
theorem eq_colon_of_smallForms {x : Char} (h : [':'] ∈ smallForms x) : x = ':' := by
  rw [smallForms] at h
  split at h
  · exact absurd h (by decide)
  · next hne =>
    have hmem : ':' ∈ lowerChar x := by rw [← List.mem_singleton.mp h]; exact List.mem_cons_self
    exact (isSmall_of_mem_lowerChar hne hmem).2 rfl

/-- A run of characters with one small letter each is put into small letters one by one, and no
colon comes in. -/
theorem exists_lowerAfter_append {us : List Char}
    (h : ∀ x ∈ us, x ≠ ':' ∧ ∃ y, smallForms x = [[y]]) (rest : List Char) :
    ∀ b, ∃ vs b', lowerAfter b (us ++ rest) = vs ++ lowerAfter b' rest ∧
      List.Forall₂ (fun x y => smallForms x = [[y]]) us vs ∧ ∀ y ∈ vs, y ≠ ':' := by
  induction us with
  | nil => exact fun b => ⟨[], b, rfl, .nil, fun _ hy => absurd hy List.not_mem_nil⟩
  | cons x us ih =>
    intro b
    obtain ⟨hx, y, hy⟩ := h x List.mem_cons_self
    obtain ⟨form, hform, b₁, hlower⟩ := exists_smallForm b x (us ++ rest)
    rw [hy, List.mem_singleton] at hform
    have hcolon : y ≠ ':' := by
      rintro rfl
      exact hx (eq_colon_of_smallForms (hy ▸ List.mem_singleton_self _))
    obtain ⟨vs, b', hvs, hforms, hnone⟩ := ih (fun z hz => h z (List.mem_cons_of_mem _ hz)) b₁
    exact ⟨y :: vs, b', by rw [List.cons_append, hlower, hform, hvs]; rfl, .cons hy hforms,
      List.forall_mem_cons.mpr ⟨hcolon, hnone⟩⟩

/-- Characters that are their own small letters are those that are small. -/
theorem eq_iff_of_smallForms {us vs : List Char}
    (h : List.Forall₂ (fun x y => smallForms x = [[y]]) us vs) : vs = us ↔ ∀ x ∈ us, IsSmall x := by
  induction h with
  | nil => simp
  | @cons x y us vs hx _ ih =>
    rw [List.cons_eq_cons, ih, List.forall_mem_cons]
    refine and_congr_left fun _ => ⟨?_, fun hsmall => ?_⟩
    · rintro rfl
      exact isSmall_of_smallForms hx
    · rw [smallForms_of_isSmall hsmall] at hx
      simpa using hx.symm

end Text

/-! ## Capitalised names, from left to right -/

namespace Name

open Text

/-- A text with the capital of every character that begins a segment; `begins` says whether the text
begins with one. -/
def capitalizeFrom : Bool → List Char → List Char
  | _, [] => []
  | _, ':' :: ':' :: rest => ':' :: ':' :: capitalizeFrom true rest
  | begins, c :: rest => (if begins then upperChar c else [c]) ++ capitalizeFrom false rest

theorem capitalizeFrom_cons (begins : Bool) {c : Char} {rest : List Char}
    (h : startsWithSeparator (c :: rest) = false) : capitalizeFrom begins (c :: rest) =
      (if begins then upperChar c else [c]) ++ capitalizeFrom false rest := by
  refine capitalizeFrom.eq_3 begins c rest ?_
  rintro tail rfl rfl
  cases h

theorem intercalate_append (front seg : List Char) (more : List (List Char)) :
    separator.intercalate ((front ++ seg) :: more) =
      front ++ separator.intercalate (seg :: more) := by
  cases more <;> simp [List.intercalate]

theorem exists_segments (cs : List Char) : ∃ seg more, segments cs = seg :: more ∧
    ∀ begins, capitalizeFrom begins cs = separator.intercalate
      ((if begins then Text.capitalize seg else seg) :: more.map Text.capitalize) := by
  fun_induction segments cs with
  | case1 =>
    refine ⟨[], [], rfl, fun begins => ?_⟩
    cases begins <;> rfl
  | case2 rest ih =>
    obtain ⟨seg, more, hrest, hcapitals⟩ := ih
    refine ⟨[], segments rest, rfl, fun begins => ?_⟩
    rw [capitalizeFrom, hcapitals true, hrest]
    cases begins <;> simp [List.intercalate, separator, Text.capitalize]
  | case3 c rest hrest seg more hsegments ih =>
    obtain ⟨seg', more', heq, hcapitals⟩ := ih
    rw [hsegments] at heq
    cases heq
    refine ⟨c :: seg, more, rfl, fun begins => ?_⟩
    rw [capitalizeFrom.eq_3 begins c rest hrest, hcapitals false]
    cases begins
    · exact (intercalate_append [c] seg _).symm
    · exact (intercalate_append (upperChar c) seg _).symm
  | case4 c rest hrest hsegments => exact absurd hsegments (segments_ne_nil rest)

theorem toList_capitalize (s : String) : (capitalize s).toList = capitalizeFrom true s.toList := by
  obtain ⟨seg, more, hsegments, hcapitals⟩ := exists_segments s.toList
  rw [capitalize, String.toList_ofList, hsegments, hcapitals true]
  rfl

theorem toList_tag (s : String) : (tag s).toList = capitalizeFrom true (lower s.toList) := by
  rw [tag, toList_capitalize, String.toList_ofList]

/-! ## Capitalising small letters again -/

theorem startsWithSeparator_of_ne {c : Char} (h : c ≠ ':') (cs : List Char) :
    startsWithSeparator (c :: cs) = false := by
  refine Bool.eq_false_iff.mpr fun hstarts => ?_
  obtain ⟨tail, heq⟩ := startsWithSeparator_iff.mp hstarts
  exact h (List.cons.inj heq).1

theorem startsWithSeparator_of_head {c : Char} {cs ds : List Char}
    (h : startsWithSeparator (c :: cs) = false)
    (hhead : ∀ t, ds = ':' :: t → ∃ t', cs = ':' :: t') :
    startsWithSeparator (c :: ds) = false := by
  refine Bool.eq_false_iff.mpr fun hds => ?_
  obtain ⟨rest, heq⟩ := startsWithSeparator_iff.mp hds
  obtain ⟨rfl, hrest⟩ := List.cons.inj heq
  obtain ⟨t', rfl⟩ := hhead rest hrest
  cases h

/-- A colon in front of a capitalised text that begins inside a segment stands there in the text. -/
theorem eq_cons_of_capitalizeFrom {cs t : List Char} (h : capitalizeFrom false cs = ':' :: t) :
    ∃ t', cs = ':' :: t' := by
  cases cs with
  | nil => cases h
  | cons c rest =>
    by_cases hsep : startsWithSeparator (c :: rest) = true
    · obtain ⟨tail, heq⟩ := startsWithSeparator_iff.mp hsep
      exact ⟨_, heq⟩
    · rw [capitalizeFrom_cons false (Bool.eq_false_iff.mpr hsep)] at h
      exact ⟨rest, by rw [(List.cons.inj h).1]⟩

theorem capitalizeFrom_append {us : List Char} (h : ∀ x ∈ us, x ≠ ':') (cs : List Char) :
    capitalizeFrom false (us ++ cs) = us ++ capitalizeFrom false cs := by
  induction us with
  | nil => rfl
  | cons x us ih =>
    have hsep := startsWithSeparator_of_ne (h x List.mem_cons_self) (us ++ cs)
    rw [List.cons_append, capitalizeFrom_cons false hsep,
      ih fun y hy => h y (List.mem_cons_of_mem _ hy)]
    rfl

theorem lowerAfter_separator (b : Bool) (cs : List Char) :
    lowerAfter b (':' :: ':' :: cs) = ':' :: ':' :: lowerAfter b cs := by
  rw [lowerAfter, lowerAfter, if_neg (by decide), if_pos isCaseIgnorable_colon,
    if_pos isCaseIgnorable_colon, lowerChar_colon]
  rfl

/-- A segment does not begin with a letter whose capital is written with several capitals. -/
def BeginsPlainly (seg : List Char) : Prop :=
  ∀ c ∈ seg.head?, ∀ x ∈ (upperChar c).tail, IsSmall x

instance (seg : List Char) : Decidable (BeginsPlainly seg) :=
  have (c : Char) : Decidable (∀ x ∈ (upperChar c).tail, IsSmall x) := List.decidableBAll _ _
  Option.decidableForallMem seg.head?

theorem beginsPlainly_nil : BeginsPlainly [] :=
  fun c hc => absurd hc (Option.not_mem_none c)

/-- What is put into small letters inside a segment does not begin with a colon unless it did. -/
theorem eq_cons_of_lowerAfter_capitalizeFrom {cs t : List Char} {b : Bool}
    (h : lowerAfter b (capitalizeFrom false cs) = ':' :: t) : ∃ t', cs = ':' :: t' := by
  obtain ⟨cs', b', hcolon, -⟩ := eq_cons_of_lowerAfter h
  exact eq_cons_of_capitalizeFrom hcolon

/-- Inside a segment a small letter stays as it is. -/
theorem capitalizeFrom_lowerAfter_inside {c : Char} {rest : List Char} (hc : IsSmall c)
    (hsep : startsWithSeparator (c :: rest) = false) (b : Bool) : ∃ b',
    capitalizeFrom false (lowerAfter b (c :: capitalizeFrom false rest)) =
      c :: capitalizeFrom false (lowerAfter b' (capitalizeFrom false rest)) := by
  obtain ⟨form, hform, b', hlower⟩ := exists_smallForm b c (capitalizeFrom false rest)
  rw [smallForms_of_isSmall hc, List.mem_singleton] at hform
  subst hform
  have hsep' := startsWithSeparator_of_head hsep fun t ht =>
    eq_cons_of_lowerAfter_capitalizeFrom (b := b') ht
  exact ⟨b', by rw [hlower, List.singleton_append, capitalizeFrom_cons false hsep']; rfl⟩

/-- The first letter of a segment is written with its capital again, and what else that is written
with stays in small letters. -/
theorem capitalizeFrom_lowerAfter_first {c : Char} {rest : List Char} (hc : IsSmall c)
    (hsep : startsWithSeparator (c :: rest) = false) (b : Bool) : ∃ u us vs b',
    upperChar c = u :: us ∧ List.Forall₂ (fun x y => smallForms x = [[y]]) us vs ∧
    capitalizeFrom true (lowerAfter b (u :: (us ++ capitalizeFrom false rest))) =
      u :: (vs ++ capitalizeFrom false (lowerAfter b' (capitalizeFrom false rest))) := by
  obtain ⟨u, us, hupper, hrecased, hcolon, hus⟩ := exists_upperChar hc
  obtain ⟨form, hform, b₁, hlower⟩ := exists_smallForm b u (us ++ capitalizeFrom false rest)
  obtain ⟨v, rfl, hv⟩ := hrecased form hform
  obtain ⟨vs, b₂, hvs, hforms, hnone⟩ :=
    exists_lowerAfter_append hus (capitalizeFrom false rest) b₁
  refine ⟨u, us, vs, b₂, hupper, hforms, ?_⟩
  have hsep' : startsWithSeparator (v :: (vs ++ lowerAfter b₂ (capitalizeFrom false rest))) =
      false := by
    by_cases hvc : v = ':'
    · -- then the character is a colon, which is written with itself alone
      subst hvc
      rw [upperChar_colon] at hv
      obtain rfl := hcolon (List.head_eq_of_cons_eq hv).symm
      rw [upperChar_colon] at hupper
      obtain ⟨-, rfl⟩ := List.cons.inj hupper
      cases hforms
      exact startsWithSeparator_of_head hsep fun _ ht => eq_cons_of_lowerAfter_capitalizeFrom ht
    · exact startsWithSeparator_of_ne hvc _
  rw [hlower, hvs, List.singleton_append, capitalizeFrom_cons true hsep', if_pos rfl, hv,
    capitalizeFrom_append hnone, List.singleton_append]

/-- Capitalising the small letters of a capitalised text gives it back exactly if its segments begin
plainly. -/
theorem capitalizeFrom_lowerAfter_iff {cs : List Char} (hsmall : ∀ c ∈ cs, IsSmall c) :
    ∀ {begins b : Bool} {seg : List Char} {more : List (List Char)}, segments cs = seg :: more →
    (capitalizeFrom begins (lowerAfter b (capitalizeFrom begins cs)) = capitalizeFrom begins cs ↔
      (begins = true → BeginsPlainly seg) ∧ ∀ s ∈ more, BeginsPlainly s) := by
  fun_induction segments cs with
  | case1 =>
    rintro begins b seg more ⟨⟩
    have heq : capitalizeFrom begins (lowerAfter b (capitalizeFrom begins [])) =
        capitalizeFrom begins [] := by
      cases begins <;> rfl
    exact iff_of_true heq ⟨fun _ => beginsPlainly_nil, fun _ hs => absurd hs List.not_mem_nil⟩
  | case2 rest ih =>
    rintro begins b seg more ⟨⟩
    obtain ⟨seg, more, hrest, -⟩ := exists_segments rest
    have htail := @ih (fun c hc => hsmall c (by simp [hc])) true b _ _ hrest
    rw [capitalizeFrom, lowerAfter_separator, capitalizeFrom, List.cons_inj_right,
      List.cons_inj_right, htail, hrest, List.forall_mem_cons]
    simp [beginsPlainly_nil]
  | case3 c rest hrest seg more hsegments ih =>
    rintro begins b _ _ ⟨⟩
    have hsep : startsWithSeparator (c :: rest) = false := by
      refine Bool.eq_false_iff.mpr fun hstarts => ?_
      obtain ⟨tail, heq⟩ := startsWithSeparator_iff.mp hstarts
      obtain ⟨hc, htail⟩ := List.cons.inj heq
      exact hrest tail hc htail
    have hc : IsSmall c := hsmall c List.mem_cons_self
    have htail : ∀ x ∈ rest, IsSmall x := fun x hx => hsmall x (List.mem_cons_of_mem _ hx)
    rw [capitalizeFrom_cons begins hsep]
    cases begins with
    | false =>
      obtain ⟨b', hinside⟩ := capitalizeFrom_lowerAfter_inside hc hsep b
      rw [if_neg (by decide), List.singleton_append, hinside, List.cons_inj_right,
        ih htail hsegments]
      simp
    | true =>
      obtain ⟨u, us, vs, b', hupper, hforms, hfirst⟩ := capitalizeFrom_lowerAfter_first hc hsep b
      have hsplit : ∀ back, vs ++ back = us ++ capitalizeFrom false rest ↔
          vs = us ∧ back = capitalizeFrom false rest := fun back =>
        ⟨fun h => List.append_inj h hforms.length_eq.symm, fun h => by rw [h.1, h.2]⟩
      have hplain : BeginsPlainly (c :: seg) ↔ ∀ x ∈ us, IsSmall x := by
        simp [BeginsPlainly, hupper]
      rw [if_pos rfl, hupper, List.cons_append, hfirst, List.cons_inj_right, hsplit,
        eq_iff_of_smallForms hforms, ih htail hsegments, hplain]
      simp
  | case4 c rest hrest hsegments => exact absurd hsegments (segments_ne_nil rest)

/-- A name has the tag of its tag exactly if its segments begin plainly. -/
theorem tag_tag_iff (s : String) :
    tag (tag s) = tag s ↔ ∀ seg ∈ segments (lower s.toList), BeginsPlainly seg := by
  obtain ⟨seg, more, hsegments, -⟩ := exists_segments (lower s.toList)
  have hsmall : ∀ c ∈ lower s.toList, IsSmall c := fun c hc => isSmall_of_mem_lowerAfter hc
  rw [← String.toList_inj, toList_tag, toList_tag, hsegments, List.forall_mem_cons]
  exact (capitalizeFrom_lowerAfter_iff hsmall hsegments).trans (by simp)

/-! ## Leading separators -/

theorem lowerAfter_replicate (b : Bool) (k : ℕ) (cs : List Char) :
    lowerAfter b (List.replicate (2 * k) ':' ++ cs) =
      List.replicate (2 * k) ':' ++ lowerAfter b cs := by
  induction k with
  | zero => rfl
  | succ k ih => exact (lowerAfter_separator b _).trans (congrArg (':' :: ':' :: ·) ih)

theorem capitalizeFrom_replicate (k : ℕ) (cs : List Char) :
    capitalizeFrom true (List.replicate (2 * k) ':' ++ cs) =
      List.replicate (2 * k) ':' ++ capitalizeFrom true cs := by
  induction k with
  | zero => rfl
  | succ k ih => exact congrArg (':' :: ':' :: ·) ih

/-- Leading separators are kept in the tag of a tag, and what follows them depends on the normalized
name alone. -/
theorem exists_toList_tag_tag (s : String) : ∃ k,
    (lowercase s).toList = List.replicate (2 * k) ':' ++ (normalize s).toList ∧
    (tag (tag s)).toList = List.replicate (2 * k) ':' ++
      capitalizeFrom true (lower (capitalizeFrom true (normalize s).toList)) := by
  obtain ⟨k, hk⟩ := exists_replicate_append_dropSeparators s.toList
  have hlower : lower s.toList = List.replicate (2 * k) ':' ++ (normalize s).toList := by
    rw [normalize, String.toList_ofList, ← hk, lower, lowerAfter_replicate, hk]
    rfl
  refine ⟨k, by rw [lowercase, String.toList_ofList, hlower], ?_⟩
  rw [toList_tag, toList_tag, hlower, capitalizeFrom_replicate, lower, lowerAfter_replicate,
    capitalizeFrom_replicate]
  rfl

/-- Names that differ in case and leading separators at most have one tag of their tags exactly if
they have as many leading separators. -/
theorem tag_tag_eq_iff {s t : String} (h : normalize s = normalize t) :
    tag (tag s) = tag (tag t) ↔ lowercase s = lowercase t := by
  constructor
  · intro heq
    obtain ⟨k, hs, hks⟩ := exists_toList_tag_tag s
    obtain ⟨j, ht, hjt⟩ := exists_toList_tag_tag t
    rw [heq, hjt, h] at hks
    have hlength := congrArg List.length hks
    simp only [List.length_append, List.length_replicate] at hlength
    rw [← String.toList_inj, hs, ht, h, show k = j by omega]
  · intro heq
    have htag : ∀ s, tag s = capitalize (lowercase s) := fun _ => rfl
    rw [htag s, htag t, heq]

end Name

end SiteCatalog
