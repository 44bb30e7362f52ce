import SiteCatalog.Proofs.NodeSelection

/-!
# Which types have the tags of classes and nodes

The tag of a type is its capitalised name. Although capitals and small letters are taken from tables
that reach beyond ASCII, only a type whose name is `class` or `node` up to the case of ASCII letters
gets the tag of classes or of nodes.

Results:
* `Name.sameIgnoringCase_of_tag`: a name that has one of the two tags.
* `Name.eq_of_tag_capitalize`: the name of a defined type that has one of them.
-/

namespace SiteCatalog

namespace Text

/-! ## Letters in the tables -/

/-- Characters that are listed can be checked one by one. -/
theorem forall_of_all {P : Char → Prop} [DecidablePred P] {cs : List Char}
    (h : cs.all (fun x => decide (P x)) = true) : ∀ x ∈ cs, P x := by
  simpa using h

/-- Only `c` and `n` have the capitals `C` and `N`. -/
theorem upperRuns_reserved : ∀ r ∈ upperRuns, ∀ p ∈ r.points, ∀ x ∈ ['c', 'n'],
    asciiLower (Char.ofNat ((p : Int) + r.shift).toNat) = x → asciiLower (Char.ofNat p) = x := by
  have hall : ∀ r ∈ upperRuns, ∀ p ∈ r.points, ['c', 'n'].all (fun x => decide
      (asciiLower (Char.ofNat ((p : Int) + r.shift).toNat) = x → asciiLower (Char.ofNat p) = x)) =
        true := by
    decide +kernel
  exact fun r hr p hp => forall_of_all (hall r hr p hp)

/-- No character is written with several capitals of which the first is `C` or `N`. -/
theorem upperExpansions_reserved : ∀ e ∈ upperExpansions, ∃ n ns, e.2 = n :: ns ∧
    ∀ x ∈ ['c', 'n'], asciiLower (Char.ofNat n) ≠ x := by
  have hall : ∀ e ∈ upperExpansions, e.2 ≠ [] ∧ ∀ n ∈ e.2.head?,
      ['c', 'n'].all (fun x => decide (asciiLower (Char.ofNat n) ≠ x)) = true := by
    decide
  intro e he
  obtain ⟨hne, hhead⟩ := hall e he
  obtain ⟨n, ns, heq⟩ := List.exists_cons_of_ne_nil hne
  rw [heq] at hhead
  exact ⟨n, ns, heq, forall_of_all (hhead n rfl)⟩

/-- Only the capitals of ASCII have the letters of `class` and `node` as their small letters. -/
theorem lowerRuns_reserved : ∀ r ∈ lowerRuns, ∀ p ∈ r.points, ∀ x ∈ "clasnode".toList,
    Char.ofNat ((p : Int) + r.shift).toNat = x → asciiLower (Char.ofNat p) = x := by
  have hall : ∀ r ∈ lowerRuns, ∀ p ∈ r.points, "clasnode".toList.all (fun x => decide
      (Char.ofNat ((p : Int) + r.shift).toNat = x → asciiLower (Char.ofNat p) = x)) = true := by
    decide +kernel
  exact fun r hr p hp => forall_of_all (hall r hr p hp)

/-- A text whose capitalised form begins with one of the two letters begins with it, up to case. -/
theorem map_asciiLower_of_capitalize {cs w : List Char} {x : Char} (hx : x ∈ ['c', 'n'])
    (h : (capitalize cs).map asciiLower = x :: w) : cs.map asciiLower = x :: w := by
  cases cs with
  | nil => exact h
  | cons c rest =>
    rw [capitalize, List.map_append] at h
    rw [List.map_cons]
    unfold upperChar at h
    split at h
    · next ns hlookup =>
      obtain ⟨front, back, hentry, -⟩ := List.lookup_eq_some_iff.mp hlookup
      obtain ⟨n, ns', heq, hne⟩ := upperExpansions_reserved (c.toNat, ns) (by simp [hentry])
      dsimp only at heq
      rw [heq, List.map_cons, List.map_cons, List.cons_append] at h
      exact absurd (List.cons.inj h).1 (hne x hx)
    · split at h
      · next n hn =>
        obtain ⟨r, hr, hp, rfl⟩ := CaseRun.exists_of_map? hn
        obtain ⟨hhead, htail⟩ := List.cons.inj h
        have := upperRuns_reserved r hr c.toNat hp x hx hhead
        rw [Char.ofNat_toNat] at this
        rw [this, ← htail]
        rfl
      · exact h

/-- Small letters that are letters of `class` and `node` belong to characters of ASCII. -/
theorem asciiLower_of_lowerChar {c x : Char} {rest w : List Char} (hx : x ∈ "clasnode".toList)
    (h : lowerChar c ++ rest = x :: w) : asciiLower c = x ∧ rest = w := by
  unfold lowerChar at h
  split at h
  · have hne : ∀ x ∈ "clasnode".toList, 'i' ≠ x := forall_of_all (by decide)
    exact absurd (List.cons.inj h).1 (hne x hx)
  · split at h
    · next n hn =>
      obtain ⟨r, hr, hp, rfl⟩ := CaseRun.exists_of_map? hn
      obtain ⟨hhead, htail⟩ := List.cons.inj h
      have := lowerRuns_reserved r hr c.toNat hp x hx hhead
      rw [Char.ofNat_toNat] at this
      exact ⟨this, htail⟩
    · obtain ⟨rfl, htail⟩ := List.cons.inj h
      have hsmall : ∀ x ∈ "clasnode".toList, asciiLower x = x := forall_of_all (by decide)
      exact ⟨hsmall c hx, htail⟩

theorem map_asciiLower_of_lowerAfter {w : List Char} (hw : ∀ x ∈ w, x ∈ "clasnode".toList) :
    ∀ {cs : List Char} {b : Bool}, lowerAfter b cs = w → cs.map asciiLower = w := by
  induction w with
  | nil =>
    intro cs b h
    cases cs with
    | nil => rfl
    | cons c rest =>
      unfold lowerAfter at h
      have hnil := (List.append_eq_nil_iff.mp h).1
      split at hnil
      · cases hnil
      · exact absurd hnil (lowerChar_ne_nil c)
  | cons x w ih =>
    intro cs b h
    cases cs with
    | nil => cases h
    | cons c rest =>
      have hx := hw x List.mem_cons_self
      unfold lowerAfter at h
      split at h
      · have hne : ∀ x ∈ "clasnode".toList, 'ς' ≠ x ∧ 'σ' ≠ x := forall_of_all (by decide)
        have hhead := (List.cons.inj h).1
        split at hhead
        · exact absurd hhead (hne x hx).1
        · exact absurd hhead (hne x hx).2
      · obtain ⟨hhead, htail⟩ := asciiLower_of_lowerChar hx h
        rw [List.map_cons, hhead, ih (fun y hy => hw y (List.mem_cons_of_mem _ hy)) htail]

end Text

/-! ## Tags -/

namespace Name

open Text

theorem segments_ne_nil (cs : List Char) : segments cs ≠ [] := by
  fun_induction segments cs with
  | case1 => exact List.cons_ne_nil _ _
  | case2 => exact List.cons_ne_nil _ _
  | case3 => exact List.cons_ne_nil _ _
  | case4 => exact List.cons_ne_nil _ _

/-- A text of one segment is that segment. -/
theorem eq_of_segments_eq {cs seg : List Char} (h : segments cs = [seg]) : cs = seg := by
  fun_induction segments cs generalizing seg with
  | case1 => exact List.head_eq_of_cons_eq h
  | case2 rest ih => exact absurd (List.cons.inj h).2 (segments_ne_nil rest)
  | case3 c rest hrest s more hsegments ih =>
    obtain ⟨rfl, rfl⟩ := List.cons.inj h
    rw [ih hsegments]
  | case4 c rest hrest hsegments ih => exact absurd hsegments (segments_ne_nil rest)

/-- A capitalised name without a colon has one segment. -/
theorem capitalize_of_not_mem {s : String} (h : ':' ∉ (capitalize s).toList) :
    (capitalize s).toList = Text.capitalize s.toList := by
  rw [capitalize, String.toList_ofList] at h ⊢
  cases hsegments : segments s.toList with
  | nil => exact absurd hsegments (segments_ne_nil _)
  | cons seg more =>
    cases more with
    | nil =>
      rw [eq_of_segments_eq hsegments]
      simp
    | cons seg' more =>
      rw [hsegments] at h
      exact absurd (by simp [separator]) h

/-- The names that stand for classes and nodes where resources are declared. -/
def reserved : List String := ["class", "node"]

variable {s w : String}

theorem exists_cons_of_reserved (hw : w ∈ reserved) : ∃ x rest, w.toList = x :: rest ∧
    x ∈ ['c', 'n'] := by
  have hall : ∀ w ∈ reserved, w.toList ≠ [] ∧ w.toList.head?.all (['c', 'n'].contains ·) = true := by
    decide
  obtain ⟨hne, hhead⟩ := hall w hw
  obtain ⟨x, rest, heq⟩ := List.exists_cons_of_ne_nil hne
  rw [heq] at hhead
  exact ⟨x, rest, heq, List.contains_iff_mem.mp hhead⟩

/-- A name whose capitalised form is reserved up to case is reserved up to case. -/
theorem map_asciiLower_of_capitalize (hw : w ∈ reserved)
    (h : (capitalize s).toList.map asciiLower = w.toList) :
    s.toList.map asciiLower = w.toList := by
  have hcolon : ':' ∉ (capitalize s).toList := by
    intro hmem
    have hmem' := List.mem_map_of_mem (f := asciiLower) hmem
    rw [h] at hmem'
    have hnone : ∀ w ∈ reserved, asciiLower ':' ∉ w.toList := by decide
    exact hnone w hw hmem'
  obtain ⟨x, rest, heq, hx⟩ := exists_cons_of_reserved hw
  rw [capitalize_of_not_mem hcolon, heq] at h
  rw [heq]
  exact Text.map_asciiLower_of_capitalize hx h

/-- A small name whose capitalised form is reserved up to case is reserved. -/
theorem eq_of_capitalize (hw : w ∈ reserved) (hs : lowercase s = s)
    (h : (capitalize s).toList.map asciiLower = w.toList) : s = w := by
  have hid : ∀ x ∈ s.toList, asciiLower x = id x := fun x hx => by
    rw [← hs, lowercase, String.toList_ofList] at hx
    exact asciiLower_of_isSmall (isSmall_of_mem_lowerAfter hx)
  have hname := map_asciiLower_of_capitalize hw h
  rw [List.map_congr_left hid, List.map_id] at hname
  exact String.toList_inj.mp hname

/-- A name whose tag is reserved up to case is reserved up to the case of ASCII letters. -/
theorem map_asciiLower_of_tag (hw : w ∈ reserved)
    (h : (tag s).toList.map asciiLower = w.toList) : s.toList.map asciiLower = w.toList := by
  have hsmall : lowercase (lowercase s) = lowercase s := by
    rw [lowercase, lowercase, String.toList_ofList, lower_lower]
  have hlower := congrArg String.toList (eq_of_capitalize hw hsmall h)
  rw [lowercase, String.toList_ofList] at hlower
  have hletters : ∀ w ∈ reserved,
      w.toList.all (fun x => decide (x ∈ "clasnode".toList)) = true := by decide
  exact map_asciiLower_of_lowerAfter (forall_of_all (hletters w hw)) hlower

theorem sameIgnoringCase_of_tag (hw : w ∈ reserved)
    (h : (tag s).toList.map asciiLower = w.toList) : sameIgnoringCase s w = true := by
  have hid : ∀ w ∈ reserved, w.toList.map asciiLower = w.toList := by decide
  rw [sameIgnoringCase, asciiEq, hid w hw]
  exact decide_eq_true (map_asciiLower_of_tag hw h)

/-- A defined type with a small name and a reserved tag has a reserved name. -/
theorem eq_of_tag_capitalize (hw : w ∈ reserved) (hs : lowercase s = s)
    (h : (tag (capitalize s)).toList.map asciiLower = w.toList) : s = w :=
  eq_of_capitalize hw hs (map_asciiLower_of_tag hw h)

end Name

end SiteCatalog
