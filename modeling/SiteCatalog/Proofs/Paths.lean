import Mathlib.Data.List.Infix
import SiteCatalog.Files.Path

/-!
# Paths and what lies above them

A name appended to a path adds one part to the parts of the path. The paths above a path are the
beginnings of its text up to some slash, so that their parts are beginnings of its parts.

Results:
* `eq_or_above_of_mem_ancestry`: the paths above a path.
* `IsName.parts_join`: the parts of a name in a directory.
* `IsName.parent?_join_join`: the directory of a file.
-/

namespace SiteCatalog.Path

/-! ## Parts -/

theorem split_ne_nil (cs : List Char) : split cs ≠ [] := by
  unfold split
  split
  · exact List.cons_ne_nil _ _
  · exact List.cons_ne_nil _ _
  · split <;> exact List.cons_ne_nil _ _

theorem split_cons_of_ne {c : Char} (h : c ≠ '/') (cs : List Char) :
    ∃ part more, split cs = part :: more ∧ split (c :: cs) = (c :: part) :: more := by
  obtain ⟨part, more, hsplit⟩ := List.exists_cons_of_ne_nil (split_ne_nil cs)
  refine ⟨part, more, hsplit, ?_⟩
  rw [split, hsplit]
  exact h

theorem split_append_slash (a b : List Char) : split (a ++ '/' :: b) = split a ++ split b := by
  induction a with
  | nil => simp [split]
  | cons c a ih =>
    by_cases hc : c = '/'
    · subst hc
      simp [split, ih]
    · obtain ⟨part, more, ha, hca⟩ := split_cons_of_ne hc a
      obtain ⟨part', more', hab, hcab⟩ := split_cons_of_ne hc (a ++ '/' :: b)
      rw [ih, ha, List.cons_append] at hab
      obtain ⟨rfl, rfl⟩ := List.cons.inj hab
      rw [List.cons_append, hcab, hca, List.cons_append]

theorem split_of_not_mem {cs : List Char} (h : '/' ∉ cs) : split cs = [cs] := by
  induction cs with
  | nil => rfl
  | cons c cs ih =>
    rw [List.mem_cons, not_or] at h
    obtain ⟨part, more, hcs, hc⟩ := split_cons_of_ne (Ne.symm h.1) cs
    rw [ih h.2] at hcs
    obtain ⟨rfl, rfl⟩ := List.cons.inj hcs
    exact hc

/-! ## Paths above a path -/

variable {q path : String} {a b : List Char}

/-- The text of a path, up to a slash at its end. -/
def Stem (q : String) (a : List Char) : Prop :=
  q.toList = a ∨ q.toList = a ++ ['/']

/-- The text of a path goes on after that of another one with a slash. -/
def Above (q path : String) : Prop :=
  ∃ a b, Stem q a ∧ path.toList = a ++ '/' :: b

theorem Stem.parts (h : Stem q a) : parts q = (split a).map String.ofList ∨
    parts q = (split a).map String.ofList ++ [""] := by
  rcases h with h | h
  · exact .inl (by rw [Path.parts, h])
  · refine .inr ?_
    rw [Path.parts, h, split_append_slash, List.map_append]
    rfl

theorem parts_of_toList_eq (h : path.toList = a ++ '/' :: b) :
    parts path = (split a).map String.ofList ++ (split b).map String.ofList := by
  rw [parts, h, split_append_slash, List.map_append]

theorem Stem.isAbsolute_eq (h : Stem q a) (hq : q ≠ "") (hpath : path.toList = a ++ '/' :: b) :
    isAbsolute path = isAbsolute q := by
  have hhead : path.toList.head? = q.toList.head? := by
    rcases h with h | h
    · obtain ⟨c, a, rfl⟩ := List.exists_cons_of_ne_nil
        fun hnil => hq (String.toList_eq_nil_iff.mp (h.trans hnil))
      rw [hpath, h]
      rfl
    · cases a <;> rw [hpath, h] <;> rfl
  rw [isAbsolute, isAbsolute, hhead]

theorem Above.trans {q' : String} (h : Above q q') (h' : Above q' path) : Above q path := by
  obtain ⟨a, b, hq, hq'⟩ := h
  obtain ⟨a', b', hstem, hpath⟩ := h'
  rcases hstem with hstem | hstem
  · exact ⟨a, b ++ '/' :: b', hq, by rw [hpath, ← hstem, hq', List.append_assoc, List.cons_append]⟩
  · refine ⟨a, b ++ b', hq, ?_⟩
    have hfront : a' ++ '/' :: b' = (a' ++ ['/']) ++ b' := by simp
    rw [hpath, hfront, ← hstem, hq', List.append_assoc, List.cons_append]

/-- What is idle stands at the front of a text that is written backwards, and a slash parts it from
the rest or is the first character of the rest. -/
theorem dropIdle_eq (cs : List Char) : dropIdle cs = cs ∨
    (∃ front, cs = front ++ '/' :: dropIdle cs) ∨
    ∃ front rest, cs = front ++ '/' :: rest ∧ dropIdle cs = '/' :: rest := by
  fun_induction dropIdle cs with
  | case1 => exact .inl rfl
  | case2 rest hrest ih =>
    rcases ih with ih | ⟨front, ih⟩ | ⟨front, rest', ih, hdrop⟩
    · exact .inr (.inl ⟨[], by rw [ih]; rfl⟩)
    · exact .inr (.inl ⟨'/' :: front, congrArg _ ih⟩)
    · exact .inr (.inr ⟨'/' :: front, rest', congrArg _ ih, hdrop⟩)
  | case3 rest ih =>
    rcases ih with ih | ⟨front, ih⟩ | ⟨front, rest', ih, hdrop⟩
    · exact .inr (.inr ⟨['.'], rest, rfl, ih⟩)
    · exact .inr (.inl ⟨'.' :: front, congrArg _ ih⟩)
    · exact .inr (.inr ⟨'.' :: front, rest', congrArg _ ih, hdrop⟩)
  | case4 => exact .inl rfl

theorem exists_append_dropIdle (cs : List Char) : ∃ front, cs = front ++ dropIdle cs := by
  rcases dropIdle_eq cs with h | ⟨front, h⟩ | ⟨front, rest, h, hdrop⟩
  · exact ⟨[], h.symm⟩
  · exact ⟨front ++ ['/'], by rw [List.append_assoc]; exact h⟩
  · exact ⟨front, by rw [hdrop]; exact h⟩

theorem above_of_reverse {front rest : List Char}
    (hpath : path.toList.reverse = front ++ '/' :: rest)
    (hq : Stem q rest.reverse) : Above q path :=
  ⟨rest.reverse, front.reverse, hq, by
    rw [← List.reverse_reverse path.toList, hpath]
    simp⟩

/-- The path without its last step is empty or above it. -/
theorem eq_empty_or_above_of_parent? (h : parent? path = some q) : q = "" ∨ Above q path := by
  unfold parent? at h
  dsimp only at h
  split at h
  · cases h
  obtain ⟨idle, hidle⟩ := exists_append_dropIdle path.toList.reverse
  have hq : q.toList = (dropIdle ((dropIdle path.toList.reverse).dropWhile (· ≠ '/'))).reverse := by
    rw [← Option.some.inj h, String.toList_ofList]
  have hsteps := List.takeWhile_append_dropWhile (p := fun c => decide (c ≠ '/'))
    (l := dropIdle path.toList.reverse)
  have hslash := List.head?_dropWhile_not (fun c => decide (c ≠ '/')) (dropIdle path.toList.reverse)
  cases hrest : (dropIdle path.toList.reverse).dropWhile (· ≠ '/') with
  | nil =>
    rw [hrest] at hq
    exact .inl (String.toList_eq_nil_iff.mp hq)
  | cons c rest =>
    rw [hrest] at hq hslash hsteps
    obtain rfl : c = '/' := by simpa using hslash
    rw [← hsteps, ← List.append_assoc] at hidle
    refine .inr ?_
    rcases dropIdle_eq ('/' :: rest) with hd | ⟨front, hd⟩ | ⟨front, rest', hd, hd'⟩
    · refine above_of_reverse hidle (.inr ?_)
      rw [hq, hd, List.reverse_cons]
    · rw [hd, ← List.append_assoc] at hidle
      exact above_of_reverse hidle (.inl hq)
    · rw [hd, ← List.append_assoc] at hidle
      refine above_of_reverse hidle (.inr ?_)
      rw [hq, hd', List.reverse_cons]

theorem eq_or_above_of_mem_lineage {fuel : ℕ} (h : q ∈ lineage fuel path) :
    q ≠ "" ∧ (q = path ∨ Above q path) := by
  induction fuel generalizing path with
  | zero => cases h
  | succ fuel ih =>
    unfold lineage at h
    split at h
    · cases h
    · next hpath =>
      rcases List.mem_cons.mp h with rfl | h
      · exact ⟨hpath, .inl rfl⟩
      · split at h
        · next above habove =>
          obtain ⟨hne, hq⟩ := ih h
          refine ⟨hne, .inr ?_⟩
          rcases eq_empty_or_above_of_parent? habove with rfl | habove
          · rcases hq with rfl | ⟨a, b, -, hempty⟩
            · exact absurd rfl hne
            · cases a <;> cases hempty
          · rcases hq with rfl | hq
            · exact habove
            · exact hq.trans habove
        · cases h

/-- The paths above a path. -/
theorem eq_or_above_of_mem_ancestry (h : q ∈ ancestry path) : q ≠ "" ∧ (q = path ∨ Above q path) :=
  eq_or_above_of_mem_lineage h

/-! ## Names in directories -/

@[simp] theorem join_empty (path : String) : join "" path = path := by
  rw [join, if_pos (by simp)]

/-- A path that is seen from a directory stands behind a slash. -/
theorem toList_join_of_relative {out : String} (hpath : isAbsolute path = false) (hout : out ≠ "") :
    ∃ a, Stem out a ∧ (join out path).toList = a ++ '/' :: path.toList := by
  rw [join, if_neg (by simp [hpath, hout])]
  split
  · next hlast =>
    obtain ⟨a, ha⟩ := List.getLast?_eq_some_iff.mp hlast
    exact ⟨a, .inr ha, by rw [String.toList_append, ha]; simp⟩
  · exact ⟨out.toList, .inl rfl, by simp [String.toList_append]⟩

/-- A text that is the name of an entry of a directory. -/
structure IsName (name : String) : Prop where
  ne_empty : name ≠ ""
  ne_here : name ≠ "."
  ne_up : name ≠ ".."
  slash : '/' ∉ name.toList
  zero : '\x00' ∉ name.toList

namespace IsName

variable {out name : String}

theorem parts_eq (h : IsName name) : parts name = [name] := by
  rw [parts, split_of_not_mem h.slash, List.map_singleton, String.ofList_toList]

theorem isAbsolute_eq (h : IsName name) : isAbsolute name = false := by
  refine decide_eq_false fun hhead => h.slash (List.mem_of_mem_head? ?_)
  rw [hhead]
  rfl

theorem toList_ne_nil (h : IsName name) : name.toList ≠ [] := fun hnil =>
  h.ne_empty (String.toList_eq_nil_iff.mp hnil)

/-- A name at the end of a path leads somewhere. -/
theorem dropIdle_append (h : IsName name) (cs : List Char) :
    dropIdle (name.toList.reverse ++ cs) = name.toList.reverse ++ cs := by
  have hslash : '/' ∉ name.toList.reverse := fun hmem => h.slash (List.mem_reverse.mp hmem)
  have hhere : name.toList.reverse ≠ ['.'] := fun heq => h.ne_here <| by
    rw [← String.toList_inj, ← List.reverse_reverse name.toList, heq]
    rfl
  obtain ⟨c, w, hrev⟩ := List.exists_cons_of_ne_nil
    fun hnil => h.toList_ne_nil (List.reverse_eq_nil_iff.mp hnil)
  rw [hrev] at hslash hhere ⊢
  unfold dropIdle
  split
  · next heq => exact absurd ((List.cons.inj heq).1 ▸ List.mem_cons_self) hslash
  · next heq => exact absurd ((List.cons.inj heq).1 ▸ List.mem_cons_self) hslash
  · next rest heq =>
    cases w with
    | nil => exact absurd (congrArg (· :: []) (List.cons.inj heq).1) hhere
    | cons d w =>
      obtain ⟨-, heq⟩ := List.cons.inj heq
      cases heq
      exact absurd (List.mem_cons_of_mem _ List.mem_cons_self) hslash
  · rfl

variable (h : IsName name)
include h

/-- A name in a directory stands behind a slash. -/
theorem toList_join (hout : out ≠ "") :
    ∃ a, Stem out a ∧ (join out name).toList = a ++ '/' :: name.toList :=
  toList_join_of_relative h.isAbsolute_eq hout

theorem join_ne_empty (out : String) : join out name ≠ "" := by
  by_cases hout : out = ""
  · rw [hout, join_empty]
    exact h.ne_empty
  · obtain ⟨a, -, ha⟩ := h.toList_join hout
    intro hempty
    rw [hempty] at ha
    cases a <;> cases ha

theorem exists_front (out : String) : ∃ front, (join out name).toList = front ++ name.toList := by
  by_cases hout : out = ""
  · exact ⟨[], by rw [hout, join_empty]; rfl⟩
  · obtain ⟨a, -, ha⟩ := h.toList_join hout
    exact ⟨a ++ ['/'], by rw [ha, List.append_assoc]; rfl⟩

/-- What is seen from the directory of a name stands behind a slash. -/
theorem toList_join_join {file : String} (hfile : IsName file) :
    (join (join out name) file).toList = (join out name).toList ++ '/' :: file.toList := by
  obtain ⟨front, hfront⟩ := h.exists_front out
  have hlast : (join out name).toList.getLast? ≠ some '/' := fun hlast => by
    rw [hfront, List.getLast?_append_of_ne_nil _ h.toList_ne_nil] at hlast
    exact h.slash (List.mem_of_getLast? hlast)
  rw [join, if_neg (by simp [hfile.isAbsolute_eq, h.join_ne_empty out]), if_neg hlast]
  simp [String.toList_append]

/-- The directory of a file is the path that the file is seen from. -/
theorem parent?_join_join {file : String} (hfile : IsName file) :
    parent? (join (join out name) file) = some (join out name) := by
  obtain ⟨front, hfront⟩ := h.exists_front out
  have hsteps : dropIdle (join (join out name) file).toList.reverse =
      file.toList.reverse ++ '/' :: (join out name).toList.reverse := by
    rw [h.toList_join_join hfile, List.reverse_append, List.reverse_cons, List.append_assoc,
      hfile.dropIdle_append]
    rfl
  have hnames : ∀ c ∈ file.toList.reverse, decide (c ≠ '/') = true := fun c hc =>
    decide_eq_true fun heq => hfile.slash (heq ▸ List.mem_reverse.mp hc)
  have hdir : dropIdle ('/' :: (join out name).toList.reverse) =
      (join out name).toList.reverse := by
    rw [hfront, List.reverse_append]
    obtain ⟨c, w, hrev⟩ := List.exists_cons_of_ne_nil
      fun hnil => h.toList_ne_nil (List.reverse_eq_nil_iff.mp hnil)
    have hname := h.dropIdle_append front.reverse
    rw [hrev, List.cons_append] at hname ⊢
    rw [dropIdle, hname]
    exact List.cons_ne_nil _ _
  have hlong : ¬(file.toList.reverse ++ '/' :: (join out name).toList.reverse = [] ∨
      file.toList.reverse ++ '/' :: (join out name).toList.reverse = ['/']) := by
    have hlen := List.length_pos_iff.mpr hfile.toList_ne_nil
    intro heq
    have hshort : (file.toList.reverse ++ '/' :: (join out name).toList.reverse).length ≤ 1 := by
      rcases heq with heq | heq <;> simp [heq]
    rw [List.length_append, List.length_reverse, List.length_cons] at hshort
    omega
  rw [parent?, hsteps, if_neg hlong, List.dropWhile_append_of_pos hnames,
    List.dropWhile_cons_of_neg (by simp), hdir, List.reverse_reverse, String.ofList_toList]

/-- The parts of a name in a directory. -/
theorem parts_join (hout : out ≠ "") : ∃ ps, parts (join out name) = ps ++ [name] ∧
    isAbsolute (join out name) = isAbsolute out ∧ (parts out = ps ∨ parts out = ps ++ [""]) := by
  obtain ⟨a, hstem, ha⟩ := h.toList_join hout
  refine ⟨(split a).map String.ofList, ?_, hstem.isAbsolute_eq hout ha, hstem.parts⟩
  rw [parts_of_toList_eq ha, ← h.parts_eq]
  rfl

theorem parts_join_join {file : String} (hfile : IsName file) :
    parts (join (join out name) file) = parts (join out name) ++ [file] := by
  rw [parts_of_toList_eq (h.toList_join_join hfile), ← hfile.parts_eq]
  rfl

theorem isAbsolute_join_join {file : String} (hfile : IsName file) :
    isAbsolute (join (join out name) file) = isAbsolute (join out name) :=
  Stem.isAbsolute_eq (.inl rfl) (h.join_ne_empty out) (h.toList_join_join hfile)

end IsName

end SiteCatalog.Path
