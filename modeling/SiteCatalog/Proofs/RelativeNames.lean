import SiteCatalog.Proofs.Registrations
import SiteCatalog.Proofs.Segments

/-!
# Relative names

A name is looked for in a namespace and the namespaces around it, from the inside out, and then at
the top. In each of them it is joined to the small letters of the namespace, as these stand in the
small letters of the innermost one.

These are not always the small letters that the namespace has in front of the name. A capital sigma
at its end is written in one way at the end of a word and in another way in front of a cased letter.
Where it turns from one into the other, a type is not found under the name that it is declared with.

Results:
* `Registry.find_path`: finding a name is looking it up in one namespace after the other.
* `Name.Path.normalize_eq_iff`: when the small letters of a namespace stay as they are.
* `Registry.find_relative`: what a name means in a namespace.
-/

namespace SiteCatalog

/-! ## Names and namespaces -/

namespace Name

open Text

/-- A name that is put together from segments. -/
structure Path where
  segments : List (List Char)
  ne_nil : segments ≠ []
  isSegment : ∀ seg ∈ segments, IsSegment seg

theorem not_starts_join {segs : List (List Char)} (h : ∀ seg ∈ segs, IsSegment seg) :
    startsWithSeparator (join segs) = false := by
  cases segs with
  | nil => rfl
  | cons seg rest =>
    obtain ⟨hseg, -⟩ := List.forall_mem_cons.mp h
    refine Bool.eq_false_iff.mpr fun hstarts => ?_
    obtain ⟨tail, htail⟩ := startsWithSeparator_iff.mp hstarts
    have hhead := head?_join hseg rest
    rw [htail, List.head?_cons] at hhead
    exact hseg.colon (List.mem_of_head? hhead.symm)

/-- A name is normalized segment by segment. -/
theorem normalize_text {segs : List (List Char)} (h : ∀ seg ∈ segs, IsSegment seg) :
    normalize (text segs) = text (lowerSegments false false segs) := by
  rw [normalize, toList_text, dropSeparators_of_not_starts (not_starts_join h), lower,
    lowerAfter_eq, lowerBetween_join]
  rfl

/-- A normalized name has as many segments as the name. -/
theorem length_eq_of_normalize_eq {segs more : List (List Char)} (h : ∀ seg ∈ segs, IsSegment seg)
    (h' : ∀ seg ∈ more, IsSegment seg) (hne : segs ≠ []) (hne' : more ≠ [])
    (heq : normalize (text segs) = normalize (text more)) : segs.length = more.length := by
  rw [normalize_text h, normalize_text h'] at heq
  have hlength := length_eq_of_join_eq (isSegment_of_mem_lowerSegments h)
    (isSegment_of_mem_lowerSegments h') (lowerSegments_eq_nil.not.mpr hne)
    (lowerSegments_eq_nil.not.mpr hne') (String.ofList_inj.mp heq)
  rwa [length_lowerSegments, length_lowerSegments] at hlength

theorem not_slashed_text {segs : List (List Char)} (h : ∀ seg ∈ segs, IsSegment seg) :
    ¬Slashed (text segs) := by
  rw [Slashed, toList_text]
  cases segs with
  | nil =>
    intro hslash
    cases hslash
  | cons seg rest =>
    obtain ⟨hseg, -⟩ := List.forall_mem_cons.mp h
    rw [head?_join hseg]
    exact hseg.slash

namespace Path

variable {ns n : Path}

def text (p : Path) : String :=
  Name.text p.segments

/-- The segments of the small letters of a name. -/
def smalls (p : Path) : List (List Char) :=
  lowerSegments false false p.segments

/-- A namespace, the first `k` segments of `ns`, ends in a capital sigma that stands before a cased
letter in `ns` and at the end of a word in front of `n`, or the other way round. -/
def Turns (ns n : Path) (k : ℕ) : Prop :=
  EndsInSigma false (join (ns.segments.take k)) ∧
    startsCased (join (ns.segments.drop k)) ≠ startsCased (join n.segments)

theorem isSegment_take_append (ns n : Path) (k : ℕ) :
    ∀ seg ∈ ns.segments.take k ++ n.segments, IsSegment seg :=
  List.forall_mem_append.mpr
    ⟨fun seg hseg => ns.isSegment seg (List.mem_of_mem_take hseg), n.isSegment⟩

theorem isSegment_smalls (p : Path) : ∀ seg ∈ p.smalls, IsSegment seg :=
  isSegment_of_mem_lowerSegments p.isSegment

theorem isSegment_take_smalls_append (ns n : Path) (k : ℕ) :
    ∀ seg ∈ ns.smalls.take k ++ n.segments, IsSegment seg :=
  List.forall_mem_append.mpr
    ⟨fun seg hseg => ns.isSegment_smalls seg (List.mem_of_mem_take hseg), n.isSegment⟩

@[simp] theorem length_smalls (p : Path) : p.smalls.length = p.segments.length :=
  length_lowerSegments ..

theorem space_eq (ns : Path) :
    (Descriptor.ofName .hostclass ns.text).space = Name.text ns.smalls :=
  normalize_text ns.isSegment

/-- A namespace without a capital sigma does not turn. -/
theorem not_turns (ns n : Path) (k : ℕ) (h : ∀ seg ∈ ns.segments, 'Σ' ∉ seg) : ¬ns.Turns n k := by
  rintro ⟨⟨before, after, heq, -, -⟩, -⟩
  have hmem : 'Σ' ∈ join (ns.segments.take k) := heq ▸ by simp
  rcases mem_join hmem with hcolon | ⟨seg, hseg, hsigma⟩
  · exact absurd hcolon (by decide)
  · exact h seg (List.mem_of_mem_take hseg) hsigma

end Path

/-- What follows a text matters exactly if the text ends in a sigma and it starts differently. -/
theorem lowerBetween_congr_iff (x y : Bool) (cs : List Char) :
    lowerBetween false x cs = lowerBetween false y cs ↔ ¬(EndsInSigma false cs ∧ x ≠ y) := by
  have hiff := lowerBetween_eq_iff false cs
  cases x <;> cases y
  · simp
  · simpa [eq_comm] using hiff
  · simpa using hiff
  · simp

namespace Path

/-- In front of a name, a namespace has the small letters that it has in a longer namespace, unless
it turns. -/
theorem normalize_eq_iff (ns n : Path) (k : ℕ) :
    normalize (Name.text (ns.smalls.take k ++ n.segments)) =
      normalize (Name.text (ns.segments.take k ++ n.segments)) ↔ ¬ns.Turns n k := by
  have hsmalls : ns.smalls.take k = lowerSegments false
      (casedBefore false (join (ns.segments.drop k))) (ns.segments.take k) :=
    take_lowerSegments ..
  have hcased : casedAfter false (join (ns.smalls.take k)) =
      casedAfter false (join (ns.segments.take k)) := by
    rw [hsmalls, ← lowerBetween_join, casedAfter_lowerBetween]
  rw [normalize_text (isSegment_take_smalls_append ns n k),
    normalize_text (isSegment_take_append ns n k), lowerSegments_append, lowerSegments_append,
    hcased, hsmalls, lowerSegments_lowerSegments, Turns, ← lowerBetween_congr_iff, startsCased_eq,
    startsCased_eq, lowerBetween_join, lowerBetween_join]
  have hn : lowerSegments (casedAfter false (join (ns.segments.take k))) false n.segments ≠ [] :=
    lowerSegments_eq_nil.not.mpr n.ne_nil
  by_cases hk : ns.segments.take k = []
  · rw [hk]
    exact iff_of_true rfl rfl
  · have hlower : ∀ x, lowerSegments false x (ns.segments.take k) ≠ [] := fun _ =>
      lowerSegments_eq_nil.not.mpr hk
    rw [Name.text, Name.text, String.ofList_inj, join_append (hlower _) hn,
      join_append (hlower _) hn, List.append_left_inj]

end Path

end Name

/-! ## What a name means -/

/-- The meaning of a name that is looked for from the inside out, if `stands k` says what it stands
for in the namespace of the first `k` of `len` segments, and so `stands 0` at the top. -/
inductive Meaning (stands : ℕ → TypeId → Prop) (len : ℕ) : Option TypeId → Prop
  | found {k : ℕ} {id : TypeId} : k ≤ len → stands k id →
      (∀ j, k < j → j ≤ len → ∀ u, ¬stands j u) → Meaning stands len (some id)
  | nothing : (∀ k ≤ len, ∀ u, ¬stands k u) → Meaning stands len none

namespace Meaning

variable {stands : ℕ → TypeId → Prop} {len : ℕ} {o : Option TypeId}

/-- In the innermost namespace a name stands for something else only if it stands for nothing. -/
theorem of_stands (hunique : ∀ k ≤ len, ∀ id u, stands k id → stands k u → id = u) {id : TypeId}
    (hid : stands len id) : Meaning stands len o ↔ o = some id := by
  constructor
  · rintro (⟨hk, hu, hinner⟩ | hnone)
    · rcases Nat.lt_or_eq_of_le hk with hlt | rfl
      · exact absurd hid (hinner len hlt (Nat.le_refl len) id)
      · rw [hunique _ hk _ _ hu hid]
    · exact absurd hid (hnone len (Nat.le_refl len) id)
  · rintro rfl
    exact .found (Nat.le_refl len) hid fun j hlt hle => absurd hle (Nat.not_le_of_gt hlt)

theorem zero_iff (hnone : ∀ u, ¬stands 0 u) : Meaning stands 0 o ↔ o = none := by
  constructor
  · rintro (⟨hk, hu, -⟩ | -)
    · cases Nat.le_zero.mp hk
      exact absurd hu (hnone _)
    · rfl
  · rintro rfl
    refine .nothing fun k hk => ?_
    cases Nat.le_zero.mp hk
    exact hnone

/-- A name that stands for nothing in the innermost namespace means what it means outside. -/
theorem succ_iff (hnone : ∀ u, ¬stands (len + 1) u) :
    Meaning stands (len + 1) o ↔ Meaning stands len o := by
  constructor
  · rintro (⟨hk, hu, hinner⟩ | hnothing)
    · rcases Nat.lt_or_eq_of_le hk with hlt | rfl
      · exact .found (Nat.le_of_lt_succ hlt) hu fun j hj hle => hinner j hj (Nat.le_succ_of_le hle)
      · exact absurd hu (hnone _)
    · exact .nothing fun k hk => hnothing k (Nat.le_succ_of_le hk)
  · rintro (⟨hk, hu, hinner⟩ | hnothing)
    · refine .found (Nat.le_succ_of_le hk) hu fun j hj hle => ?_
      rcases Nat.lt_or_eq_of_le hle with hlt | rfl
      · exact hinner j hj (Nat.le_of_lt_succ hlt)
      · exact hnone
    · refine .nothing fun k hk => ?_
      rcases Nat.lt_or_eq_of_le hk with hlt | rfl
      · exact hnothing k (Nat.le_of_lt_succ hlt)
      · exact hnone

end Meaning

/-- Looking up one namespace after the other gives the meaning. -/
theorem meaning_iff {stands : ℕ → TypeId → Prop} {f : ℕ → Option TypeId} {len : ℕ}
    (h : ∀ k ≤ len, ∀ id, f k = some id ↔ stands k id) {o : Option TypeId} :
    (List.range (len + 1)).reverse.findSome? f = o ↔ Meaning stands len o := by
  have hunique : ∀ k ≤ len, ∀ id u, stands k id → stands k u → id = u := fun k hk id u hid hu =>
    Option.some.inj (((h k hk id).mpr hid).symm.trans ((h k hk u).mpr hu))
  have hnone : ∀ k ≤ len, f k = none → ∀ u, ¬stands k u := fun k hk hf u hu =>
    nomatch hf.symm.trans ((h k hk u).mpr hu)
  induction len with
  | zero =>
    rw [List.range_one, List.reverse_singleton, List.findSome?_singleton]
    cases hf : f 0 with
    | some id =>
      rw [Meaning.of_stands hunique ((h 0 (Nat.le_refl 0) id).mp hf)]
      exact eq_comm
    | none =>
      rw [Meaning.zero_iff (hnone 0 (Nat.le_refl 0) hf)]
      exact eq_comm
  | succ len ih =>
    rw [List.range_succ, List.reverse_append, List.reverse_singleton, List.singleton_append,
      List.findSome?_cons]
    cases hf : f (len + 1) with
    | some id =>
      rw [Meaning.of_stands hunique ((h _ (Nat.le_refl _) id).mp hf)]
      exact eq_comm
    | none =>
      rw [Meaning.succ_iff (hnone _ (Nat.le_refl _) hf)]
      exact ih (fun k hk => h k (Nat.le_succ_of_le hk))
        (fun k hk => hunique k (Nat.le_succ_of_le hk)) fun k hk => hnone k (Nat.le_succ_of_le hk)

namespace Registry

/-- Finding a name is looking it up in the namespaces from the inside out, and then at the top. -/
theorem find_path (r : Registry) (kind : Kind) (ns n : Name.Path) :
    r.find kind (Descriptor.ofName .hostclass ns.text).space n.text =
      (List.range (ns.segments.length + 1)).reverse.findSome? fun k =>
        r.lookup kind (Name.text (ns.smalls.take k ++ n.segments)) := by
  have hstarts : Name.startsWithSeparator n.text.toList = false := by
    rw [Name.Path.text, Name.toList_text]
    exact Name.not_starts_join n.isSegment
  have hspace : Name.normalize (Name.text ns.smalls) = Name.text ns.smalls := by
    rw [← ns.space_eq]
    exact Name.normalize_normalize _
  have hfuel : ns.smalls.length ≤ (Name.text ns.smalls).toList.length + 1 := by
    rw [Name.toList_text]
    exact Nat.le_succ_of_le (Name.length_le_length_join ns.isSegment_smalls)
  have henclosing := Name.enclosing_text ns.isSegment_smalls (Nat.le_refl _) hfuel
  rw [List.take_length, ns.length_smalls] at henclosing
  have hinside : ∀ k, Name.text (ns.smalls.take (k + 1)) ++ "::" ++ n.text =
      Name.text (ns.smalls.take (k + 1) ++ n.segments) := by
    intro k
    have hne : ns.smalls.take (k + 1) ≠ [] := by
      rw [Ne, List.take_eq_nil_iff, not_or]
      exact ⟨Nat.succ_ne_zero k, Name.lowerSegments_eq_nil.not.mpr ns.ne_nil⟩
    exact (Name.text_append hne n.ne_nil).symm
  have hrange : (List.range (ns.segments.length + 1)).reverse =
      (List.range ns.segments.length).reverse.map (· + 1) ++ [0] := by
    rw [List.range_succ_eq_map, List.reverse_cons, List.map_reverse]
  rw [find, if_neg (by rw [hstarts]; exact Bool.false_ne_true), ns.space_eq, hspace]
  dsimp only
  rw [henclosing, hrange, List.findSome?_append, List.findSome?_map, List.findSome?_map,
    List.findSome?_singleton]
  simp only [Function.comp_def, hinside]
  split <;> next hfound => rw [hfound]; rfl

end Registry

/-! ## What is found -/

open RegistrationLog (granted)

/-- A type was declared under a spelling of the name that is put together from segments. -/
def RegistrationLog.DeclaredAs (log : RegistrationLog) (kind : Kind) (segs : List (List Char))
    (id : TypeId) : Prop :=
  ∃ m, (.literal kind m, id) ∈ granted log ∧ Name.Alike m (Name.text segs)

/-- A name made of segments leads to no pattern. -/
theorem Designation.foundUnder_text_iff {g : Designation} {segs : List (List Char)}
    (h : ∀ seg ∈ segs, Name.IsSegment seg) :
    g.FoundUnder (Name.text segs) ↔
      ∃ kind m, g = .literal kind m ∧ Name.Alike m (Name.text segs) := by
  cases g with
  | literal kind m =>
    rw [FoundUnder, if_neg (Name.not_slashed_text h)]
    exact ⟨fun halike => ⟨kind, m, rfl, halike⟩, by rintro ⟨_, _, ⟨⟩, halike⟩; exact halike⟩
  | pattern p =>
    rw [FoundUnder, if_neg (Name.not_slashed_text h), Name.normalize_text h]
    refine iff_of_false (fun heq => ?_) (by rintro ⟨_, _, ⟨⟩, _⟩)
    have hslash := slashed_patternKey p
    rw [← heq] at hslash
    exact Name.not_slashed_text (Name.isSegment_of_mem_lowerSegments h) hslash

namespace Registry

theorem lookup_text_iff (environment : String) (calls : List Registration) {kind : Kind}
    {segs : List (List Char)} (h : ∀ seg ∈ segs, Name.IsSegment seg) {id : TypeId} :
    (registerAll perform (.empty environment, []) calls).1.lookup kind (Name.text segs) = some id ↔
      (registerAll perform (.empty environment, []) calls).2.DeclaredAs kind segs id := by
  rw [lookup_registerAll_iff]
  constructor
  · rintro ⟨g, hg, rfl, hname⟩
    obtain ⟨kind, m, rfl, halike⟩ := (Designation.foundUnder_text_iff h).mp hname
    exact ⟨m, hg, halike⟩
  · rintro ⟨m, hm, halike⟩
    exact ⟨_, hm, rfl, (Designation.foundUnder_text_iff h).mpr ⟨kind, m, rfl, halike⟩⟩

/-- A name after a separator is looked up at the top. -/
theorem find_separator (r : Registry) (kind : Kind) (space : String) (n : Name.Path) :
    r.find kind space ("::" ++ n.text) = r.lookup kind n.text := by
  have htext : ("::" ++ n.text).toList = ':' :: ':' :: n.text.toList := String.toList_append
  have hstarts : Name.startsWithSeparator ("::" ++ n.text).toList = true := by
    rw [htext]
    rfl
  have hslash : ¬Name.Slashed ("::" ++ n.text) := by
    rw [Name.Slashed, htext, List.head?_cons]
    decide
  have hslash' : ¬Name.Slashed n.text := Name.not_slashed_text n.isSegment
  have hkey : lookupKey ("::" ++ n.text) = lookupKey n.text := by
    rw [Name.lookupKey_of_not_slashed hslash, Name.lookupKey_of_not_slashed hslash',
      Name.normalize, htext]
    rfl
  rw [find, if_pos hstarts, lookup, hkey]
  rfl

/-- Relative names in the namespace of a class `ns` mean what they stand for in the namespaces that
are put together from the first segments of `spaces`, from the inside out. -/
def FindsIn (r : Registry) (log : RegistrationLog) (kind : Kind) (ns n : Name.Path)
    (spaces : List (List Char)) : Prop :=
  ∀ o, r.find kind (Descriptor.ofName .hostclass ns.text).space n.text = o ↔
    Meaning (fun k => log.DeclaredAs kind (spaces.take k ++ n.segments)) spaces.length o

variable (environment : String) (calls : List Registration) (kind : Kind) (ns n : Name.Path)

theorem findsIn_smalls :
    (registerAll perform (.empty environment, []) calls).1.FindsIn
      (registerAll perform (.empty environment, []) calls).2 kind ns n ns.smalls := by
  intro o
  rw [find_path, ← ns.length_smalls]
  exact meaning_iff fun k _ id =>
    lookup_text_iff environment calls (Name.Path.isSegment_take_smalls_append ns n k)

theorem findsIn_segments (h : ∀ k ≤ ns.segments.length, ¬ns.Turns n k) :
    (registerAll perform (.empty environment, []) calls).1.FindsIn
      (registerAll perform (.empty environment, []) calls).2 kind ns n ns.segments := by
  intro o
  rw [find_path]
  refine meaning_iff fun k hk id => ?_
  rw [lookup_text_iff environment calls (Name.Path.isSegment_take_smalls_append ns n k)]
  refine exists_congr fun m => and_congr_right fun _ => ?_
  rw [Name.alike_iff, Name.alike_iff, (ns.normalize_eq_iff n k).mpr (h k hk)]

/-- Where a namespace turns, a type is not found that is declared there. -/
theorem not_findsIn_segments {k : ℕ} (hk : k ≤ ns.segments.length) (h : ns.Turns n k) :
    let s := registerAll perform (.empty environment, [])
      [.add (.ofName kind (Name.text (ns.segments.take k ++ n.segments)))]
    s.2.DeclaredAs kind (ns.segments.take k ++ n.segments) 0 ∧
      ¬s.1.FindsIn s.2 kind ns n ns.segments := by
  intro s
  have hgranted : granted s.2 =
      [(.literal kind (Name.text (ns.segments.take k ++ n.segments)), 0)] := rfl
  have hdeclared : s.2.DeclaredAs kind (ns.segments.take k ++ n.segments) 0 :=
    ⟨_, hgranted ▸ List.mem_cons_self, Name.alike_iff.mpr rfl⟩
  refine ⟨hdeclared, fun hfinds => ?_⟩
  have hsmalls := findsIn_smalls environment
    [.add (.ofName kind (Name.text (ns.segments.take k ++ n.segments)))] kind ns n
  cases hfound : s.1.find kind (Descriptor.ofName .hostclass ns.text).space n.text with
  | none =>
    cases (hfinds none).mp hfound with
    | nothing hnothing => exact hnothing k hk 0 hdeclared
  | some id =>
    cases (hsmalls (some id)).mp hfound with
    | @found j _ hj hstands _ =>
      obtain ⟨m, hm, halike⟩ := hstands
      rw [hgranted] at hm
      cases List.mem_singleton.mp hm
      have hsame := Name.alike_iff.mp halike
      have hlength := Name.length_eq_of_normalize_eq (ns.isSegment_take_append n k)
        (ns.isSegment_take_smalls_append n j) (List.append_ne_nil_of_right_ne_nil _ n.ne_nil)
        (List.append_ne_nil_of_right_ne_nil _ n.ne_nil) hsame
      have hjk : j = k := by
        rw [List.length_append, List.length_append, List.length_take, List.length_take,
          ns.length_smalls] at hlength
        rw [ns.length_smalls] at hj
        omega
      subst hjk
      exact (ns.normalize_eq_iff n j).mp hsame.symm h

/-- A name means, in a namespace, the type that is declared under it in the innermost of the
namespaces, as these stand in the small letters of the first one. These are the namespaces as they
are declared if none of them turns; and if one turns, a type that is declared there is missed. After
a separator, a name means what is declared under it at the top. -/
theorem find_relative (ns n : Name.Path) :
    (∀ environment calls kind,
      let s := registerAll perform (.empty environment, []) calls
      s.1.FindsIn s.2 kind ns n ns.smalls ∧
      ((∀ k ≤ ns.segments.length, ¬ns.Turns n k) → s.1.FindsIn s.2 kind ns n ns.segments) ∧
      ∀ space id, s.1.find kind space ("::" ++ n.text) = some id ↔
        s.2.DeclaredAs kind n.segments id) ∧
    ∀ k ≤ ns.segments.length, ns.Turns n k → ∀ environment kind,
      let s := registerAll perform (.empty environment, [])
        [.add (.ofName kind (Name.text (ns.segments.take k ++ n.segments)))]
      s.2.DeclaredAs kind (ns.segments.take k ++ n.segments) 0 ∧
        ¬s.1.FindsIn s.2 kind ns n ns.segments := by
  refine ⟨fun environment calls kind => ?_, fun k hk hturns environment kind => ?_⟩
  · refine ⟨findsIn_smalls environment calls kind ns n,
      findsIn_segments environment calls kind ns n, fun space id => ?_⟩
    rw [find_separator]
    exact lookup_text_iff environment calls n.isSegment
  · exact not_findsIn_segments environment kind ns n hk hturns

/-- A class inside another one is found there, and the class of that name at the top only after a
separator. The class `ΑΣ` turns in front of `x`. -/
theorem find_relative_web :
    (let ns : Name.Path := ⟨["Web".toList, "App".toList], by decide, by decide⟩
    let n : Name.Path := ⟨["Db".toList], by decide, by decide⟩
    let s := registerAll perform (.empty "production", [])
      [.add (.ofName .hostclass "web::DB"), .add (.ofName .hostclass "DB")]
    s.1.find .hostclass (Descriptor.ofName .hostclass ns.text).space n.text = some 0 ∧
      s.1.find .hostclass "" ("::" ++ n.text) = some 1) ∧
    let ns : Name.Path := ⟨["ΑΣ".toList], by decide, by decide⟩
    let n : Name.Path := ⟨["x".toList], by decide, by decide⟩
    let s := registerAll perform (.empty "production", [])
      [.add (.ofName .hostclass (Name.text (ns.segments.take 1 ++ n.segments)))]
    ns.Turns n 1 ∧ s.2.DeclaredAs .hostclass (ns.segments.take 1 ++ n.segments) 0 ∧
      ¬s.1.FindsIn s.2 .hostclass ns n ns.segments := by
  constructor
  · intro ns n s
    have hgranted : granted s.2 =
        [(.literal .hostclass "web::DB", 0), (.literal .hostclass "DB", 1)] := rfl
    obtain ⟨hfinds, -⟩ := find_relative ns n
    obtain ⟨-, hfinds, htop⟩ := hfinds "production"
      [.add (.ofName .hostclass "web::DB"), .add (.ofName .hostclass "DB")] .hostclass
    have hturns : ∀ k ≤ ns.segments.length, ¬ns.Turns n k := fun k _ => ns.not_turns n k (by decide)
    refine ⟨(hfinds hturns (some 0)).mpr (.found (k := 1) (by decide) ?_ ?_), (htop "" 1).mpr ?_⟩
    · exact ⟨"web::DB", hgranted ▸ List.mem_cons_self, Name.alike_iff.mpr (by decide +kernel)⟩
    · intro j hinner hj u hu
      obtain rfl : j = 2 := Nat.le_antisymm hj hinner
      obtain ⟨m, hm, halike⟩ := hu
      have hname := Name.alike_iff.mp halike
      rw [hgranted] at hm
      rcases List.mem_cons.mp hm with hm | hm
      · cases hm
        exact absurd hname (by decide +kernel)
      · cases List.mem_singleton.mp hm
        exact absurd hname (by decide +kernel)
    · exact ⟨"DB", hgranted ▸ List.mem_cons_of_mem _ List.mem_cons_self,
        Name.alike_iff.mpr (by decide +kernel)⟩
  · intro ns n s
    have hturns : ns.Turns n 1 := ⟨⟨['Α'], [], rfl, nofun, by decide +kernel⟩, by decide +kernel⟩
    exact ⟨hturns, (find_relative ns n).2 1 (by decide) hturns "production" .hostclass⟩

set_option maxRecDepth 4000 in
/-- A class is declared inside the class `ΑΣ`, whose sigma stands at the end of a word in its own
name, but not in the name of the other one. From the namespace of `ΑΣ` it is not found. -/
theorem not_findsIn_sigma :
    let ns : Name.Path := ⟨["ΑΣ".toList], by decide, by decide⟩
    let n : Name.Path := ⟨["x".toList], by decide, by decide⟩
    let s := registerAll perform (.empty "production", [])
      [.add (.ofName .hostclass "ΑΣ"), .add (.ofName .hostclass "ΑΣ::x")]
    s.2.DeclaredAs .hostclass (ns.segments ++ n.segments) 1 ∧
      s.1.find .hostclass (Descriptor.ofName .hostclass ns.text).space n.text = none ∧
      ¬s.1.FindsIn s.2 .hostclass ns n ns.segments := by
  intro ns n s
  have hgranted : granted s.2 = [(.literal .hostclass "ΑΣ", 0), (.literal .hostclass "ΑΣ::x", 1)] :=
    rfl
  have hdeclared : s.2.DeclaredAs .hostclass (ns.segments ++ n.segments) 1 :=
    ⟨"ΑΣ::x", hgranted ▸ List.mem_cons_of_mem _ List.mem_cons_self,
      Name.alike_iff.mpr (by decide +kernel)⟩
  have hspace : (Descriptor.ofName .hostclass ns.text).space = "ας" := by decide +kernel
  have hnone : s.1.find .hostclass "ας" "x" = none := by decide +kernel
  rw [← hspace] at hnone
  refine ⟨hdeclared, hnone, fun hfinds => ?_⟩
  cases (hfinds none).mp hnone with
  | nothing hnothing => exact hnothing 1 (by decide) 1 hdeclared

end Registry

end SiteCatalog
