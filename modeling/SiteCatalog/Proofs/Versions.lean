import Mathlib.Data.List.Basic
import SiteCatalog.Catalog.Digest
import SiteCatalog.CatalogDocument

/-!
# What the version of a catalog tells

The version is the hash of a listing of the resources. In the listing a value stands by its text, so
that a number and the string of its digits are not told apart, and nothing is escaped, so that
separators inside of names and texts may be taken for separators between them. Catalogs without such
separators have the same listing exactly if their documents print alike.

Results:
* `utf8_inj`, `Catalog.listing_eq`: the listing as text.
* `PrintedEntry.lines_inj`: a listing is taken apart again at its separators.
* `Value.alike_refl`, `Value.eq_of_text_eq`: values of one type that print alike are equal.
* `Catalog.version_eq_iff`: when two catalogs have the same listing, and the same version.
-/

namespace SiteCatalog

/-! ## Bytes of texts -/

theorem toList_eq_data (bytes : ByteArray) : bytes.toList = bytes.data.toList := by
  have hloop : ∀ (n i : ℕ) (r : List UInt8), bytes.size - i = n →
      ByteArray.toList.loop bytes i r = r.reverse ++ bytes.data.toList.drop i := by
    intro n
    induction n with
    | zero =>
      intro i r hn
      have hle : bytes.size ≤ i := Nat.le_of_sub_eq_zero hn
      have hdrop : bytes.data.toList.drop i = [] := List.drop_eq_nil_of_le hle
      rw [ByteArray.toList.loop, if_neg (Nat.not_lt.mpr hle), hdrop, List.append_nil]
    | succ n ih =>
      intro i r hn
      have hlt : i < bytes.size := by omega
      have hlen : i < bytes.data.toList.length := hlt
      have hget : bytes.get! i = bytes.data.toList[i] := by
        rw [ByteArray.get!, getElem!_pos bytes.data i hlt, Array.getElem_toList]
      rw [ByteArray.toList.loop, if_pos hlt, ih (i + 1) _ (by omega), List.reverse_cons, hget,
        List.append_assoc, List.singleton_append, ← List.drop_eq_getElem_cons]
  exact hloop _ 0 [] rfl

theorem utf8_append (s t : String) : utf8 (s ++ t) = utf8 s ++ utf8 t := by
  rw [utf8, utf8, utf8, toList_eq_data, toList_eq_data, toList_eq_data, String.toUTF8,
    String.toByteArray_append, ByteArray.toList_data_append]
  rfl

theorem utf8_inj {s t : String} : utf8 s = utf8 t ↔ s = t := by
  refine ⟨fun h => ?_, congrArg utf8⟩
  rw [utf8, utf8, toList_eq_data, toList_eq_data, Array.toList_inj] at h
  exact String.toByteArray_inj.mp (ByteArray.ext h)

/-! ## The listing as text -/

/-- A resource with its values as the listing shows them. -/
structure PrintedEntry where
  type : String
  title : String
  parameters : List (String × String)
  deriving DecidableEq

/-- The entry with texts in place of its values. -/
def ResourceEntry.printed (r : ResourceEntry) : PrintedEntry :=
  ⟨r.type, r.title, r.parameters.map fun e => (e.1, e.2.text)⟩

namespace PrintedEntry

/-- The characters that stand for parameters. -/
def parameterText : List (String × String) → List Char
  | [] => []
  | (name, text) :: rest => name.toList ++ '=' :: (text.toList ++ '\x00' :: parameterText rest)

/-- The characters that stand for resources. -/
def lines : List PrintedEntry → List Char
  | [] => []
  | r :: rest => r.type.toList ++ '[' :: (r.title.toList ++ [']'] ++ '\x00' ::
      (parameterText r.parameters ++ '\n' :: lines rest))

end PrintedEntry

theorem utf8_ofList_append (cs cs' : List Char) :
    utf8 (String.ofList (cs ++ cs')) = utf8 (String.ofList cs) ++ utf8 (String.ofList cs') := by
  rw [String.ofList_append, utf8_append]

theorem utf8_nul : utf8 (String.ofList ['\x00']) = [0] := by
  decide +kernel

theorem Resource.parameterListing_eq (params : Table Value) :
    parameterListing params
      = utf8 (String.ofList
        (PrintedEntry.parameterText (params.map fun e => (e.1, e.2.text)))) := by
  induction params with
  | nil => decide +kernel
  | cons e rest ih =>
    have hsplit : PrintedEntry.parameterText ((e :: rest).map fun e => (e.1, e.2.text))
        = e.1.toList ++ ("=".toList ++ (e.2.text.toList ++ (['\x00'] ++
            PrintedEntry.parameterText (rest.map fun e => (e.1, e.2.text))))) := rfl
    rw [hsplit, utf8_ofList_append, utf8_ofList_append, utf8_ofList_append, utf8_ofList_append,
      String.ofList_toList, String.ofList_toList, String.ofList_toList, utf8_nul, ← ih]
    simp only [parameterListing, List.flatMap_cons, List.append_assoc]

/-- The listing is the text of the printed entries. -/
theorem Catalog.listing_eq (c : Catalog) :
    c.listing = utf8 (String.ofList (PrintedEntry.lines
      ((CatalogDocument.ofCatalog c).resources.map ResourceEntry.printed))) := by
  show c.resources.flatMap Resource.listing = utf8 (String.ofList (PrintedEntry.lines
    ((c.resources.map fun r => ⟨r.tag, r.title, r.params⟩).map ResourceEntry.printed)))
  induction c.resources with
  | nil => decide +kernel
  | cons r rest ih =>
    have hsplit : PrintedEntry.lines
          (((r :: rest).map fun r => ⟨r.tag, r.title, r.params⟩).map ResourceEntry.printed)
        = r.tag.toList ++ ("[".toList ++ (r.title.toList ++ ("]".toList ++ (['\x00'] ++
            (PrintedEntry.parameterText (r.params.map fun e => (e.1, e.2.text)) ++ ("\n".toList ++
              PrintedEntry.lines
                ((rest.map fun r => ⟨r.tag, r.title, r.params⟩).map
                  ResourceEntry.printed))))))) := by
      simp [PrintedEntry.lines, ResourceEntry.printed]
    rw [hsplit, List.flatMap_cons, ih]
    simp only [utf8_ofList_append, String.ofList_toList, utf8_nul, ← Resource.parameterListing_eq,
      Resource.listing, Resource.reference, utf8_append, List.append_assoc]

/-! ## Taking a listing apart -/

namespace PrintedEntry

/-- An entry without separators where the listing needs them: what stands before a separator does
not contain it, and no parameter is taken for the end of the entry. -/
structure Separable (r : PrintedEntry) : Prop where
  type : '[' ∉ r.type.toList
  title : '\x00' ∉ r.title.toList
  names : ∀ p ∈ r.parameters, '=' ∉ p.1.toList ∧ p.1.toList.head? ≠ some '\n'
  texts : ∀ p ∈ r.parameters, '\x00' ∉ p.2.toList

instance (r : PrintedEntry) : Decidable r.Separable :=
  decidable_of_iff ('[' ∉ r.type.toList ∧ '\x00' ∉ r.title.toList ∧
      (∀ p ∈ r.parameters, '=' ∉ p.1.toList ∧ p.1.toList.head? ≠ some '\n') ∧
      ∀ p ∈ r.parameters, '\x00' ∉ p.2.toList)
    ⟨fun h => ⟨h.1, h.2.1, h.2.2.1, h.2.2.2⟩, fun h => ⟨h.type, h.title, h.names, h.texts⟩⟩

/-- What stands before the first separator is determined, and so is what stands after it. -/
theorem append_separator_inj {sep : Char} {s t : String} {cs cs' : List Char}
    (hs : sep ∉ s.toList) (ht : sep ∉ t.toList)
    (h : s.toList ++ sep :: cs = t.toList ++ sep :: cs') : s = t ∧ cs = cs' := by
  have hlonger : ∀ {pre more : List Char} {rest rest' : List Char}, sep ∉ pre ++ more →
      sep :: rest = more ++ sep :: rest' → more = [] ∧ rest = rest' := by
    intro pre more rest rest' hnot heq
    cases more with
    | nil => exact ⟨rfl, (List.cons.inj heq).2⟩
    | cons c more =>
      rw [(List.cons.inj heq).1] at hnot
      exact absurd (List.mem_append_right pre List.mem_cons_self) hnot
  obtain ⟨more, htext, hrest⟩ | ⟨more, htext, hrest⟩ := List.append_eq_append_iff.mp h
  · obtain ⟨rfl, heq⟩ := hlonger (htext ▸ ht) hrest
    exact ⟨String.toList_inj.mp (by rw [htext, List.append_nil]), heq⟩
  · obtain ⟨rfl, heq⟩ := hlonger (htext ▸ hs) hrest
    exact ⟨String.toList_inj.mp (by rw [htext, List.append_nil]), heq.symm⟩

/-- The end of an entry is not the beginning of a parameter. -/
theorem newline_ne_parameter {name : String} (hname : name.toList.head? ≠ some '\n')
    (cs cs' : List Char) : '\n' :: cs ≠ name.toList ++ '=' :: cs' := by
  intro h
  cases hcs : name.toList with
  | nil =>
    rw [hcs, List.nil_append] at h
    exact absurd (List.cons.inj h).1 (by decide)
  | cons c rest =>
    rw [hcs, List.cons_append] at h
    rw [hcs, ← (List.cons.inj h).1] at hname
    exact hname rfl

/-- The text of parameters up to the end of the entry tells them. -/
theorem parameterText_inj {params params' : List (String × String)} {cs cs' : List Char}
    (hnames : ∀ p ∈ params, '=' ∉ p.1.toList ∧ p.1.toList.head? ≠ some '\n')
    (htexts : ∀ p ∈ params, '\x00' ∉ p.2.toList)
    (hnames' : ∀ p ∈ params', '=' ∉ p.1.toList ∧ p.1.toList.head? ≠ some '\n')
    (htexts' : ∀ p ∈ params', '\x00' ∉ p.2.toList)
    (h : parameterText params ++ '\n' :: cs = parameterText params' ++ '\n' :: cs') :
    params = params' ∧ cs = cs' := by
  induction params generalizing params' with
  | nil =>
    cases params' with
    | nil => exact ⟨rfl, (List.cons.inj h).2⟩
    | cons p' rest' =>
      simp only [parameterText, List.append_assoc, List.cons_append] at h
      exact absurd h (newline_ne_parameter (hnames' p' List.mem_cons_self).2 _ _)
  | cons p rest ih =>
    cases params' with
    | nil =>
      simp only [parameterText, List.append_assoc, List.cons_append] at h
      exact absurd h.symm (newline_ne_parameter (hnames p List.mem_cons_self).2 _ _)
    | cons p' rest' =>
      simp only [parameterText, List.append_assoc, List.cons_append] at h
      obtain ⟨hname, h⟩ := append_separator_inj (hnames p List.mem_cons_self).1
        (hnames' p' List.mem_cons_self).1 h
      obtain ⟨htext, h⟩ := append_separator_inj (htexts p List.mem_cons_self)
        (htexts' p' List.mem_cons_self) h
      obtain ⟨hrest, hcs⟩ := ih (fun q hq => hnames q (List.mem_cons_of_mem _ hq))
        (fun q hq => htexts q (List.mem_cons_of_mem _ hq))
        (fun q hq => hnames' q (List.mem_cons_of_mem _ hq))
        (fun q hq => htexts' q (List.mem_cons_of_mem _ hq)) h
      exact ⟨by rw [hrest, Prod.ext hname htext], hcs⟩

/-- A listing of separable entries tells them. -/
theorem lines_inj {entries entries' : List PrintedEntry} (hsep : ∀ r ∈ entries, r.Separable)
    (hsep' : ∀ r ∈ entries', r.Separable) (h : lines entries = lines entries') :
    entries = entries' := by
  induction entries generalizing entries' with
  | nil =>
    cases entries' with
    | nil => rfl
    | cons r' rest' => exact absurd h (by simp [lines])
  | cons r rest ih =>
    cases entries' with
    | nil => exact absurd h (by simp [lines])
    | cons r' rest' =>
      have hr := hsep r List.mem_cons_self
      have hr' := hsep' r' List.mem_cons_self
      have hbracket : ∀ {title : String}, '\x00' ∉ title.toList →
          '\x00' ∉ (title ++ "]").toList := by
        intro title hno
        rw [String.toList_append, List.mem_append]
        exact not_or.mpr ⟨hno, by decide⟩
      obtain ⟨htype, h⟩ := append_separator_inj hr.type hr'.type h
      rw [show [']'] = "]".toList from rfl, ← String.toList_append, ← String.toList_append] at h
      obtain ⟨htitle, h⟩ := append_separator_inj (hbracket hr.title) (hbracket hr'.title) h
      obtain ⟨hparams, h⟩ := parameterText_inj hr.names hr.texts hr'.names hr'.texts h
      have hrest := ih (fun q hq => hsep q (List.mem_cons_of_mem _ hq))
        (fun q hq => hsep' q (List.mem_cons_of_mem _ hq)) h
      have hentry : r = r' := by
        cases r
        cases r'
        simp only [mk.injEq]
        exact ⟨htype, (String.append_left_inj _).mp htitle, hparams⟩
      rw [hentry, hrest]

end PrintedEntry

/-! ## Values that print alike -/

namespace Value

/-- What stands between the items of a list. -/
def comma : List Char := [',', ' ']

/-- Texts that are not told apart from others by the comma between items: they are the same, or
neither contains it. -/
def Told (s s' : String) : Prop :=
  s = s' ∨ ¬comma <:+: s.toList ∧ ¬comma <:+: s'.toList

mutual

/-- Values of one type: undefined values, booleans, integers, strings, or lists of such values, one
by one. -/
def Alike : Value → Value → Prop
  | .undefined, .undefined => True
  | .bool _, .bool _ => True
  | .int _, .int _ => True
  | .str _, .str _ => True
  | .array items, .array items' => AlikeAll items items'
  | _, _ => False

/-- Values of the same types, one by one. Strings among them that differ do not contain the comma
between items. -/
def AlikeAll : List Value → List Value → Prop
  | [], [] => True
  | v :: rest, v' :: rest' =>
    v.Alike v' ∧ (∀ s s', v = .str s → v' = .str s' → Told s s') ∧ AlikeAll rest rest'
  | _, _ => False

end

mutual

/-- Every value is of its own type. -/
theorem alike_refl : ∀ v : Value, v.Alike v
  | .undefined => trivial
  | .bool _ => trivial
  | .int _ => trivial
  | .str _ => trivial
  | .array items => alikeAll_refl items

theorem alikeAll_refl : ∀ items : List Value, AlikeAll items items
  | [] => trivial
  | v :: rest => by
    refine ⟨alike_refl v, ?_, alikeAll_refl rest⟩
    rintro s s' rfl hs'
    exact .inl (Value.str.inj hs')

end

theorem boolText_inj {b b' : Bool} (h : boolText b = boolText b') : b = b' := by
  revert b b'
  decide

theorem repr_nat_inj {m n : ℕ} (h : m.repr = n.repr) : m = n := by
  have hdigits : Nat.toDigits 10 m = Nat.toDigits 10 n := by
    rw [← Nat.toList_repr, ← Nat.toList_repr, h]
  rw [← Nat.ofDigitChars_ten_toDigits (n := m), hdigits, Nat.ofDigitChars_ten_toDigits]

theorem isDigit_of_mem_repr {n : ℕ} {c : Char} (h : c ∈ n.repr.toList) : c.isDigit = true := by
  rw [Nat.toList_repr] at h
  exact Nat.isDigit_of_mem_toDigits (by decide) (by decide) h

/-- A number without a sign is not one with a sign. -/
theorem repr_nat_ne_minus {n : ℕ} {s : String} : n.repr ≠ "-" ++ s := by
  intro h
  have hmem : '-' ∈ n.repr.toList := by
    rw [h, String.toList_append]
    exact List.mem_append_left _ (by decide)
  exact absurd (isDigit_of_mem_repr hmem) (by decide)

theorem toString_int_inj {i j : Int} (h : toString i = toString j) : i = j := by
  rw [Int.toString_eq_repr, Int.toString_eq_repr, Int.repr_eq_if, Int.repr_eq_if] at h
  split at h
  · split at h
    · have := repr_nat_inj h
      omega
    · exact absurd h repr_nat_ne_minus
  · split at h
    · exact absurd h.symm repr_nat_ne_minus
    · have := repr_nat_inj ((String.append_right_inj _).mp h)
      omega

theorem not_mem_toString_int (i : Int) : ',' ∉ (toString i).toList := by
  rw [Int.toString_eq_repr, Int.repr_eq_if]
  split
  · exact fun h => absurd (isDigit_of_mem_repr h) (by decide)
  · rw [String.toList_append, List.mem_append, not_or]
    exact ⟨by decide, fun h => absurd (isDigit_of_mem_repr h) (by decide)⟩

/-! ### Items of lists -/

theorem no_comma_of_not_mem {cs : List Char} (h : ',' ∉ cs) : ¬comma <:+: cs :=
  fun hin => h (hin.subset List.mem_cons_self)

/-- A closing bracket does not complete a comma. -/
theorem no_comma_concat {cs : List Char} (h : ¬comma <:+: cs) :
    ¬comma <:+: cs ++ [']'] := by
  rw [List.infix_concat_iff, not_or]
  refine ⟨fun ⟨front, heq⟩ => ?_, h⟩
  have hlast := congrArg List.getLast? heq
  simp [comma] at hlast

/-- What stands before the first comma between items is determined, and so is what stands after
it. -/
theorem append_comma_inj {cs cs' ds ds' : List Char} (hcs : ¬comma <:+: cs)
    (hcs' : ¬comma <:+: cs') (h : cs ++ (comma ++ ds) = cs' ++ (comma ++ ds')) :
    cs = cs' ∧ ds = ds' := by
  have hlonger : ∀ {pre more rest rest' : List Char}, ¬comma <:+: pre ++ more →
      comma ++ rest = more ++ (comma ++ rest') → more = [] ∧ rest = rest' := by
    intro pre more rest rest' hnot heq
    match more, heq with
    | [], heq => exact ⟨rfl, List.append_cancel_left heq⟩
    | [_], heq =>
      -- the second half of one comma is not the first half of the other
      exact absurd (List.cons.inj (List.cons.inj heq).2).1 (by decide)
    | _ :: _ :: more, heq =>
      obtain ⟨hfirst, htail⟩ := List.cons.inj heq
      obtain ⟨hsecond, -⟩ := List.cons.inj htail
      exact absurd ⟨pre, more, by simp [comma, ← hfirst, ← hsecond]⟩ hnot
  obtain ⟨more, rfl, hrest⟩ | ⟨more, rfl, hrest⟩ := List.append_eq_append_iff.mp h
  · obtain ⟨rfl, heq⟩ := hlonger hcs' hrest
    exact ⟨(List.append_nil cs).symm, heq⟩
  · obtain ⟨rfl, heq⟩ := hlonger hcs hrest
    exact ⟨List.append_nil cs', heq.symm⟩

/-- What may follow a value in two texts: the same number of closing brackets, and then a comma in
both or the end of both. -/
inductive Followed : List Char → List Char → Prop
  | done : Followed [] []
  | comma (cs cs' : List Char) : Followed (comma ++ cs) (comma ++ cs')
  | close {cs cs' : List Char} : Followed cs cs' → Followed (']' :: cs) (']' :: cs')

/-- A text without a comma ends where something follows. -/
theorem Followed.append_inj {cs cs' ds ds' : List Char} (hf : Followed ds ds')
    (hcs : ¬Value.comma <:+: cs) (hcs' : ¬Value.comma <:+: cs') (h : cs ++ ds = cs' ++ ds') :
    cs = cs' ∧ ds = ds' := by
  induction hf generalizing cs cs' with
  | done => exact ⟨by simpa using h, rfl⟩
  | comma ds ds' =>
    obtain ⟨hcs, hds⟩ := append_comma_inj hcs hcs' h
    exact ⟨hcs, congrArg _ hds⟩
  | close _ ih =>
    obtain ⟨heq, hds⟩ := ih (no_comma_concat hcs) (no_comma_concat hcs')
      (by simpa using h)
    exact ⟨List.append_cancel_right heq, congrArg _ hds⟩

/-- The text of a string of a list ends where something follows. -/
theorem Told.append_inj {s s' : String} {ds ds' : List Char} (htold : Told s s')
    (hf : Followed ds ds') (h : s.toList ++ ds = s'.toList ++ ds') : s = s' ∧ ds = ds' := by
  rcases htold with rfl | ⟨hs, hs'⟩
  · exact ⟨rfl, List.append_cancel_left h⟩
  · obtain ⟨heq, hds⟩ := hf.append_inj hs hs' h
    exact ⟨String.toList_inj.mp heq, hds⟩

mutual

/-- Values of one type that print alike before what follows them are equal. -/
theorem eq_of_text_append_eq : ∀ {v w : Value} {ds ds' : List Char}, v.Alike w →
    (∀ s s', v = .str s → w = .str s' → Told s s') → Followed ds ds' →
    v.text.toList ++ ds = w.text.toList ++ ds' → v = w ∧ ds = ds'
  | .undefined, .undefined, _, _, _, _, _, h => ⟨rfl, List.append_cancel_left h⟩
  | .bool b, .bool b', _, _, _, _, hf, h => by
    have hfree : ∀ b, ¬comma <:+: (boolText b).toList :=
      fun b => no_comma_of_not_mem (by cases b <;> decide)
    obtain ⟨htext, hds⟩ := hf.append_inj (hfree b) (hfree b') h
    exact ⟨congrArg Value.bool (boolText_inj (String.toList_inj.mp htext)), hds⟩
  | .int i, .int j, _, _, _, _, hf, h => by
    obtain ⟨htext, hds⟩ := hf.append_inj (no_comma_of_not_mem (not_mem_toString_int _))
      (no_comma_of_not_mem (not_mem_toString_int _)) h
    exact ⟨congrArg Value.int (Int64.toInt_inj.mp (toString_int_inj (String.toList_inj.mp htext))),
      hds⟩
  | .str s, .str s', _, _, _, htold, hf, h => by
    obtain ⟨rfl, hds⟩ := (htold s s' rfl rfl).append_inj hf h
    exact ⟨rfl, hds⟩
  | .array items, .array items', _, _, halike, _, hf, h => by
    simp only [text, String.toList_append, List.append_assoc] at h
    obtain ⟨rfl, hds⟩ := eq_of_texts_append_eq halike (.close hf) (List.append_cancel_left h)
    exact ⟨rfl, (List.cons.inj hds).2⟩

theorem eq_of_texts_append_eq : ∀ {items items' : List Value} {ds ds' : List Char},
    AlikeAll items items' → Followed ds ds' →
    (", ".intercalate (texts items)).toList ++ ds
      = (", ".intercalate (texts items')).toList ++ ds' → items = items' ∧ ds = ds'
  | [], [], _, _, _, _, h => ⟨rfl, h⟩
  | [v], [v'], _, _, halike, hf, h => by
    simp only [texts, String.intercalate_singleton] at h
    obtain ⟨rfl, hds⟩ := eq_of_text_append_eq halike.1 halike.2.1 hf h
    exact ⟨rfl, hds⟩
  | v :: w :: rest, v' :: w' :: rest', _, _, halike, hf, h => by
    obtain ⟨hv, htold, hrest⟩ := halike
    simp only [texts, String.intercalate_cons_cons, String.toList_append, List.append_assoc] at h
    obtain ⟨rfl, hmore⟩ := eq_of_text_append_eq hv htold (.comma _ _) h
    obtain ⟨heq, hds⟩ := eq_of_texts_append_eq hrest hf (List.append_cancel_left hmore)
    exact ⟨congrArg _ heq, hds⟩
  | [_], _ :: _ :: _, _, _, halike, _, _ => absurd halike.2.2 id
  | _ :: _ :: _, [_], _, _, halike, _, _ => absurd halike.2.2 id

end

/-- Values of one type that print alike are equal. -/
theorem eq_of_text_eq {v w : Value} (halike : v.Alike w) (h : v.text = w.text) : v = w := by
  cases v with
  | str s =>
    cases w with
    | str s' => exact congrArg Value.str h
    | _ => exact absurd halike id
  | _ =>
    exact (eq_of_text_append_eq halike (fun _ _ hs => nomatch hs) .done (by rw [h])).1

end Value

/-! ## Versions -/

namespace Catalog

theorem digitChar_inj : ∀ m < 16, ∀ n < 16, Nat.digitChar m = Nat.digitChar n → m = n := by
  decide

theorem hexByte_inj {b b' : UInt8} (h : hexByte b = hexByte b') : b = b' := by
  have hb := b.toNat_lt
  have hb' := b'.toNat_lt
  obtain ⟨hhigh, htail⟩ := List.cons.inj h
  have hdiv := digitChar_inj _ (by omega) _ (by omega) hhigh
  have hmod := digitChar_inj _ (by omega) _ (by omega) (List.cons.inj htail).1
  exact UInt8.toNat_inj.mp (by omega)

theorem flatMap_hexByte_inj {bytes bytes' : List UInt8}
    (h : bytes.flatMap hexByte = bytes'.flatMap hexByte) : bytes = bytes' := by
  induction bytes generalizing bytes' with
  | nil =>
    cases bytes' with
    | nil => rfl
    | cons b' rest' => exact absurd h (by simp [hexByte])
  | cons b rest ih =>
    cases bytes' with
    | nil => exact absurd h (by simp [hexByte])
    | cons b' rest' =>
      rw [List.flatMap_cons, List.flatMap_cons] at h
      obtain ⟨hbyte, hrest⟩ := List.append_inj h rfl
      rw [hexByte_inj hbyte, ih hrest]

/-- Digests are equal exactly if the hashes are. -/
theorem digest_inj {c c' : Catalog} :
    c.digest = c'.digest ↔ Blake3.hash c.listing = Blake3.hash c'.listing := by
  refine ⟨fun h => ?_, fun h => by rw [digest, digest, h]⟩
  rw [digest, digest, String.append_right_inj, String.ofList_inj] at h
  exact flatMap_hexByte_inj h

/-- The resources of the document with texts in place of values. -/
def printed (c : Catalog) : List PrintedEntry :=
  (CatalogDocument.ofCatalog c).resources.map ResourceEntry.printed

/-- A catalog whose listing has no separators inside of tags, titles, names and texts. -/
def Separable (c : Catalog) : Prop :=
  ∀ r ∈ c.printed, r.Separable

instance (c : Catalog) : Decidable c.Separable :=
  inferInstanceAs (Decidable (∀ r ∈ c.printed, r.Separable))

/-- Catalogs whose values are of the same types, place by place. -/
def Alike (c c' : Catalog) : Prop :=
  List.Forall₂ (fun r r' : Resource => List.Forall₂ (fun e e' => e.2.Alike e'.2) r.params r'.params)
    c.resources c'.resources

theorem params_eq_of_printed_eq {params params' : Table Value}
    (halike : List.Forall₂ (fun e e' => e.2.Alike e'.2) params params')
    (h : params.map (fun e => (e.1, e.2.text)) = params'.map fun e => (e.1, e.2.text)) :
    params = params' := by
  induction halike with
  | nil => rfl
  | @cons e e' rest rest' he _ ih =>
    obtain ⟨hentry, hrest⟩ := List.cons.inj h
    obtain ⟨hname, htext⟩ := Prod.mk.inj hentry
    rw [ih hrest, Prod.ext hname (Value.eq_of_text_eq he htext)]

/-- Documents that print alike are equal if their values are of the same types. -/
theorem resources_eq_of_printed_eq {c c' : Catalog} (halike : c.Alike c')
    (h : c.printed = c'.printed) :
    (CatalogDocument.ofCatalog c).resources = (CatalogDocument.ofCatalog c').resources := by
  let entry (r : Resource) : ResourceEntry := ⟨r.tag, r.title, r.params⟩
  revert h
  change List.Forall₂ _ _ _ at halike
  show (c.resources.map entry).map ResourceEntry.printed
      = (c'.resources.map entry).map ResourceEntry.printed →
    c.resources.map entry = c'.resources.map entry
  generalize c.resources = rs, c'.resources = rs' at halike ⊢
  induction halike with
  | nil => exact fun _ => rfl
  | @cons r r' rest rest' hparams _ ih =>
    intro h
    obtain ⟨hentry, hrest⟩ := List.cons.inj h
    simp only [ResourceEntry.printed, PrintedEntry.mk.injEq] at hentry
    obtain ⟨htag, htitle, htexts⟩ := hentry
    have hresource : entry r = entry r' := by
      rw [ResourceEntry.mk.injEq]
      exact ⟨htag, htitle, params_eq_of_printed_eq hparams htexts⟩
    rw [List.map_cons, List.map_cons, ih hrest, hresource]

/-- Separable catalogs have the same listing exactly if their documents print alike, and then the
documents have the same resources if values of the same types stand at the same places. Unless their
listings collide, they have the same version exactly if their documents print alike. -/
theorem version_eq_iff {c c' : Catalog} (hc : c.Separable) (hc' : c'.Separable) :
    (c.listing = c'.listing ↔ c.printed = c'.printed) ∧
    (c.Alike c' → c.listing = c'.listing →
      (CatalogDocument.ofCatalog c).resources = (CatalogDocument.ofCatalog c').resources) ∧
    ((Blake3.hash c.listing = Blake3.hash c'.listing → c.listing = c'.listing) →
      (c.finalize.version = c'.finalize.version ↔ c.printed = c'.printed)) := by
  have hlisting : c.listing = c'.listing ↔ c.printed = c'.printed := by
    rw [listing_eq, listing_eq, utf8_inj, String.ofList_inj]
    exact ⟨PrintedEntry.lines_inj hc hc', congrArg PrintedEntry.lines⟩
  refine ⟨hlisting, fun halike h => resources_eq_of_printed_eq halike (hlisting.mp h), ?_⟩
  intro hcollision
  rw [finalize, finalize, Option.some_inj, digest_inj, ← hlisting]
  exact ⟨hcollision, congrArg Blake3.hash⟩

/-- A catalog with one file. -/
def oneFile (title : String) (params : Table Value) : Catalog :=
  (empty "web01").append (.ofType "file" title 0 none params)

/-- Catalogs that the listing does not tell apart although they print differently: a separator in a
name, in a text, in a title, in a tag, and a name that begins like the next line. -/
def confusions : List (Catalog × Catalog) :=
  [(oneFile "motd" [("a=b", .str "c")], oneFile "motd" [("a", .str "b=c")]),
   (oneFile "motd" [("a", .str "x\x00b=y")], oneFile "motd" [("a", .str "x"), ("b", .str "y")]),
   (oneFile "motd]\x00a=x" [], oneFile "motd" [("a", .str "x]")]),
   ((empty "web01").append (.ofType "a[x" "y" 0 none []),
    (empty "web01").append (.ofType "a" "x[y" 0 none [])),
   (oneFile "motd" [("\nFile[issue]\x00a", .str "x")],
    (oneFile "motd" []).append (.ofType "file" "issue" 0 none [("a", .str "x")]))]

theorem confusions_lines : ∀ p ∈ confusions,
    PrintedEntry.lines p.1.printed = PrintedEntry.lines p.2.printed ∧
      p.1.printed ≠ p.2.printed := by
  decide

theorem listing_eq_of_printed_eq {c c' : Catalog} (h : c.printed = c'.printed) :
    c.listing = c'.listing := by
  rw [listing_eq, listing_eq]
  exact congrArg (fun entries => utf8 (String.ofList (PrintedEntry.lines entries))) h

/-- Different values of one text: a number and its digits, alone and in a list, lists whose strings
contain the comma between items, and lists of different numbers of items. -/
def ambiguous : List (Value × Value) :=
  [(.int 1, .str "1"), (.array [.int 1], .array [.str "1"]),
   (.array [.str "a, b", .str "c"], .array [.str "a", .str "b, c"]), (.array [], .array [.str ""]),
   (.array [.array [.str "a"], .str "b]"], .array [.array [.str "a]", .str "b"]])]

theorem text_eq_of_ambiguous : ∀ p ∈ ambiguous, p.1.text = p.2.text ∧ p.1 ≠ p.2 := by
  have htext : ∀ p ∈ ambiguous, p.1.text = p.2.text := by decide
  have hne : ∀ p ∈ ambiguous, p.1 ≠ p.2 := by simp [ambiguous]
  exact fun p hp => ⟨htext p hp, hne p hp⟩

/-- Separators are taken for one another, and so are values of one text. -/
theorem listings_confused :
    (∀ p ∈ confusions, p.1.listing = p.2.listing ∧ p.1.printed ≠ p.2.printed) ∧
    ∀ p ∈ ambiguous,
      (oneFile "motd" [("mode", p.1)]).listing = (oneFile "motd" [("mode", p.2)]).listing ∧
      (CatalogDocument.ofCatalog (oneFile "motd" [("mode", p.1)])).resources
        ≠ (CatalogDocument.ofCatalog (oneFile "motd" [("mode", p.2)])).resources := by
  refine ⟨fun p hp => ⟨?_, (confusions_lines p hp).2⟩, fun p hp => ?_⟩
  · rw [listing_eq, listing_eq]
    exact congrArg (fun cs => utf8 (String.ofList cs)) (confusions_lines p hp).1
  · obtain ⟨htext, hne⟩ := text_eq_of_ambiguous p hp
    refine ⟨listing_eq_of_printed_eq ?_, fun h => hne ?_⟩
    · simp [printed, oneFile, empty, append, CatalogDocument.ofCatalog, Resource.ofType,
        ResourceEntry.printed, htext]
    · simpa [oneFile, empty, append, CatalogDocument.ofCatalog, Resource.ofType] using h

/-- Two numbers are told apart, and their hashes do not collide. -/
theorem version_eq_iff_numbers :
    (oneFile "motd" [("mode", .int 1)]).Separable ∧ (oneFile "motd" [("mode", .int 2)]).Separable ∧
    (oneFile "motd" [("mode", .int 1)]).listing ≠ (oneFile "motd" [("mode", .int 2)]).listing ∧
    (oneFile "motd" [("mode", .int 1)]).finalize.version
      ≠ (oneFile "motd" [("mode", .int 2)]).finalize.version := by
  have hsep : (oneFile "motd" [("mode", .int 1)]).Separable := by decide +kernel
  have hsep' : (oneFile "motd" [("mode", .int 2)]).Separable := by decide +kernel
  have hprinted : (oneFile "motd" [("mode", .int 1)]).printed
      ≠ (oneFile "motd" [("mode", .int 2)]).printed := by
    decide +kernel
  obtain ⟨hlisting, -, hversion⟩ := version_eq_iff hsep hsep'
  have hcollision : Blake3.hash (oneFile "motd" [("mode", .int 1)]).listing
      ≠ Blake3.hash (oneFile "motd" [("mode", .int 2)]).listing := by
    decide +kernel
  exact ⟨hsep, hsep', fun h => hprinted (hlisting.mp h),
    fun h => hprinted ((hversion fun heq => absurd heq hcollision).mp h)⟩

end Catalog

end SiteCatalog
