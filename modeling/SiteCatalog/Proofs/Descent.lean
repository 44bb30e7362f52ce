import SiteCatalog.Proofs.Registry
import Mathlib.Data.Fintype.Pigeonhole
import Mathlib.Logic.Relation

/-!
# Following links again and again

What is reached by links: `Relation.TransGen (Linked next) x y` says that `y` is reached from `x` by
one or more links, whether or not they ever end.

Results:
* `exists_along_lt`: among `n` things that have links, what is reached at all is reached by `n`
  links.
* `Leads.mem_of_reached`, `Leads.not_ring`: what is reached where the links end, and that there is
  no ring among it.
* `Registry.isChildOf_iff`: a type is a child of those, and only those, that are reached from it by
  known parents, rings among the parents included.
-/

namespace SiteCatalog

variable {ι : Type} {next : ι → Option ι} {x y z : ι}

/-- One thing is the next of another. -/
def Linked (next : ι → Option ι) (x y : ι) : Prop :=
  next x = some y

/-- The thing after a number of links, if they go that far. -/
def along (next : ι → Option ι) : ℕ → ι → Option ι
  | 0, x => some x
  | k + 1, x => (next x).bind (along next k)

theorem along_add (next : ι → Option ι) (j k : ℕ) (x : ι) :
    along next (j + k) x = (along next j x).bind (along next k) := by
  induction j generalizing x with
  | zero => rw [Nat.zero_add]; rfl
  | succ j ih =>
    rw [Nat.succ_add, along, along, Option.bind_assoc]
    exact congrArg (Option.bind _) (funext ih)

/-- Where the links go on, they have gone on before. -/
theorem exists_along_of_lt {j k : ℕ} (h : along next k x = some y) (hlt : j < k) :
    ∃ z, along next j x = some z ∧ (next z).isSome := by
  obtain ⟨i, rfl⟩ := Nat.exists_eq_add_of_lt hlt
  rw [Nat.add_assoc, along_add] at h
  obtain ⟨z, hz, hrest⟩ := Option.bind_eq_some_iff.mp h
  obtain ⟨w, hw, -⟩ := Option.bind_eq_some_iff.mp hrest
  exact ⟨z, hz, by rw [hw]; rfl⟩

theorem transGen_iff_along : Relation.TransGen (Linked next) x y ↔
    ∃ k, along next (k + 1) x = some y := by
  constructor
  · intro h
    induction h with
    | single hxy => exact ⟨0, by rw [along, show next x = _ from hxy]; rfl⟩
    | tail _ hyz ih =>
      obtain ⟨k, hk⟩ := ih
      refine ⟨k + 1, ?_⟩
      rw [along_add, hk, Option.bind_some, along, show next _ = _ from hyz]
      rfl
  · rintro ⟨k, hk⟩
    induction k generalizing x with
    | zero =>
      obtain ⟨z, hz, hzy⟩ := Option.bind_eq_some_iff.mp hk
      cases hzy
      exact .single hz
    | succ k ih =>
      obtain ⟨z, hz, hzy⟩ := Option.bind_eq_some_iff.mp hk
      exact .head hz (ih hzy)

/-- Where only the numbers below `n` have links, more than `n` links pass one of them twice, and the
links between can be left out. -/
theorem exists_along_lt {next : ℕ → Option ℕ} {n x y k : ℕ}
    (hlt : ∀ z, (next z).isSome → z < n) (h : along next (k + 1) x = some y) :
    ∃ j < n, along next (j + 1) x = some y := by
  induction k using Nat.strong_induction_on with
  | _ k ih =>
    by_cases hk : k < n
    · exact ⟨k, hk, h⟩
    · have hpassed : ∀ i : Fin (k + 1), ∃ z : Fin n, along next i x = some (z : ℕ) := by
        intro i
        obtain ⟨z, hz, hs⟩ := exists_along_of_lt h i.isLt
        exact ⟨⟨z, hlt z hs⟩, hz⟩
      choose place hplace using hpassed
      obtain ⟨i, j, hij, heq⟩ := Fintype.exists_ne_map_eq_of_card_lt place (by simp; omega)
      -- without loss of generality `i` is passed first
      wlog hbefore : i < j generalizing i j
      · exact this j i hij.symm heq.symm (by omega)
      have hsame : along next i x = along next j x := by rw [hplace, hplace, heq]
      have hshort : along next (i + (k - j) + 1) x = some y := by
        rw [Nat.add_assoc, along_add, hsame, ← along_add, show j + (k - j + 1) = k + 1 by omega]
        exact h
      exact ih _ (by omega) hshort

/-! ## Chains of links -/

theorem transGen_of_isChain {l : List ι} (h : (x :: l).IsChain (Linked next)) :
    ∀ y ∈ l, Relation.TransGen (Linked next) x y := by
  induction l generalizing x with
  | nil => exact fun _ hy => nomatch hy
  | cons z l ih =>
    obtain ⟨hxz, hrest⟩ := List.isChain_cons_cons.mp h
    intro y hy
    rcases List.mem_cons.mp hy with rfl | hy
    · exact .single hxz
    · exact .head hxz (ih hrest y hy)

theorem reached_of_isChain {l : List ι} (h : (x :: l).IsChain (Linked next)) :
    ∀ y ∈ x :: l, Relation.ReflTransGen (Linked next) x y := by
  intro y hy
  rcases List.mem_cons.mp hy with rfl | hy
  · exact .refl
  · exact (transGen_of_isChain h y hy).to_reflTransGen

/-- A chain that goes on to one of its members has a ring at its end. -/
theorem ring_of_isChain {l : List ι} (h : (l ++ [y]).IsChain (Linked next)) (hy : y ∈ l) :
    Relation.TransGen (Linked next) y y := by
  obtain ⟨front, back, rfl⟩ := List.append_of_mem hy
  rw [List.append_assoc, List.cons_append] at h
  exact transGen_of_isChain h.right_of_append y (List.mem_append_right _ (by simp))

/-- A chain of links without repetition, with its first and its last member. -/
structure Way (next : ι → Option ι) (first last : ι) (chain : List ι) : Prop where
  head : chain.head? = some first
  last : chain.getLast? = some last
  links : chain.IsChain (Linked next)
  nodup : chain.Nodup

namespace Way

variable {first last : ι} {chain : List ι}

theorem single (next : ι → Option ι) (x : ι) : Way next x x [x] where
  head := rfl
  last := rfl
  links := .singleton x
  nodup := List.nodup_singleton x

theorem last_mem (h : Way next first last chain) : last ∈ chain :=
  List.mem_of_getLast? h.last

theorem links_snoc (h : Way next first last chain) (hy : next last = some y) :
    (chain ++ [y]).IsChain (Linked next) := by
  refine h.links.append (.singleton y) fun x hx z hz => ?_
  rw [h.last] at hx
  cases hx
  cases hz
  exact hy

theorem snoc (h : Way next first last chain) (hy : next last = some y) (hnew : y ∉ chain) :
    Way next first y (chain ++ [y]) where
  head := by rw [List.head?_append, h.head]; rfl
  last := List.getLast?_concat
  links := h.links_snoc hy
  nodup := h.nodup.append (List.nodup_singleton y) (by simpa using hnew)

theorem reached (h : Way next first last chain) :
    ∀ y ∈ chain, Relation.ReflTransGen (Linked next) first y := by
  obtain ⟨tail, rfl⟩ := List.head?_eq_some_iff.mp h.head
  exact reached_of_isChain h.links

/-- A way that goes on to one of its members reaches a ring. -/
theorem ring (h : Way next first last chain) (hy : next last = some y) (hmem : y ∈ chain) :
    Relation.TransGen (Linked next) y y :=
  ring_of_isChain (h.links_snoc hy) hmem

end Way

/-- Links come to one end at most. -/
theorem eq_of_reached (hy : Relation.ReflTransGen (Linked next) x y)
    (hz : Relation.ReflTransGen (Linked next) x z) (hynone : next y = none)
    (hznone : next z = none) : y = z := by
  induction hy using Relation.ReflTransGen.head_induction_on with
  | refl =>
    rcases Relation.ReflTransGen.cases_head hz with rfl | ⟨w, hw, -⟩
    · rfl
    · rw [Linked, hynone] at hw
      cases hw
  | head hxw _ ih =>
    rcases Relation.ReflTransGen.cases_head hz with rfl | ⟨v, hv, hvz⟩
    · rw [Linked, hznone] at hxw
      cases hxw
    · rw [Linked, hxw] at hv
      cases hv
      exact ih hvz

namespace Leads

variable {l : List ι}

/-- All that is reached lies on the way. -/
theorem mem_of_transGen (h : Leads next x l) (hy : Relation.TransGen (Linked next) x y) :
    y ∈ l := by
  induction h with
  | last hx =>
    obtain ⟨z, hz, -⟩ := Relation.TransGen.head'_iff.mp hy
    rw [Linked, hx] at hz
    cases hz
  | link hx _ ih =>
    obtain ⟨z, hz, hzy⟩ := Relation.TransGen.head'_iff.mp hy
    rw [Linked, hx] at hz
    cases hz
    rcases Relation.reflTransGen_iff_eq_or_transGen.mp hzy with rfl | hzy
    · exact List.mem_cons_self
    · exact List.mem_cons_of_mem _ (ih hzy)

theorem mem_of_reached (h : Leads next x l) (hy : Relation.ReflTransGen (Linked next) x y) :
    y ∈ x :: l := by
  rcases Relation.reflTransGen_iff_eq_or_transGen.mp hy with rfl | hy
  · exact List.mem_cons_self
  · exact List.mem_cons_of_mem _ (h.mem_of_transGen hy)

/-- From a thing on the way, the rest of it leads on. -/
theorem of_reached (h : Leads next x l) (hy : Relation.ReflTransGen (Linked next) x y) :
    ∃ m, Leads next y m := by
  rcases List.mem_cons.mp (h.mem_of_reached hy) with rfl | hmem
  · exact ⟨l, h⟩
  · obtain ⟨m, hm, -⟩ := h.of_mem hmem
    exact ⟨m, hm⟩

/-- Where the links end, nothing on the way comes back to itself. -/
theorem not_ring (h : Leads next x l) (hy : Relation.ReflTransGen (Linked next) x y) :
    ¬Relation.TransGen (Linked next) y y := by
  intro hring
  obtain ⟨m, hm⟩ := h.of_reached hy
  exact (List.nodup_cons.mp hm.nodup).1 (hm.mem_of_transGen hring)

/-- Where something without a next thing is reached, the links end. -/
theorem exists_of_reached (hy : Relation.ReflTransGen (Linked next) x y) (hnone : next y = none) :
    ∃ l, Leads next x l := by
  induction hy using Relation.ReflTransGen.head_induction_on with
  | refl => exact ⟨[], .last hnone⟩
  | head hxz _ ih =>
    obtain ⟨l, hl⟩ := ih
    exact ⟨_, .link hxz hl⟩

end Leads

/-! ## Known parents -/

namespace Registry

variable {r : Registry} {t p : TypeId}

/-- The parent of a type as far as it is known. -/
def known? (r : Registry) (t : TypeId) : Option TypeId :=
  (r.get? t).bind (·.resolved)

theorem lt_of_known? (h : (r.known? t).isSome) : t < r.types.length := by
  obtain ⟨p, hp⟩ := Option.isSome_iff_exists.mp h
  obtain ⟨d, hd, -⟩ := Option.bind_eq_some_iff.mp hp
  exact lt_length_of_get? hd

theorem reaches_iff (r : Registry) (ancestor : TypeId) (fuel : ℕ) (from? : Option TypeId) :
    r.reaches ancestor fuel from? = true ↔
      ∃ k < fuel, from?.bind (along r.known? k) = some ancestor := by
  induction fuel generalizing from? with
  | zero => simp [reaches]
  | succ fuel ih =>
    cases from? with
    | none => simp [reaches]
    | some id =>
      rw [reaches, Bool.or_eq_true, decide_eq_true_eq, show (r.get? id).bind (·.resolved) =
        r.known? id from rfl, ih]
      constructor
      · rintro (rfl | ⟨k, hk, hreached⟩)
        · exact ⟨0, Nat.succ_pos _, rfl⟩
        · exact ⟨k + 1, Nat.succ_lt_succ hk, hreached⟩
      · rintro ⟨_ | k, hk, hreached⟩
        · exact .inl (Option.some.inj hreached)
        · exact .inr ⟨k, Nat.lt_of_succ_lt_succ hk, hreached⟩

/-- As many steps as there are types reach all that is reached by known parents at all. -/
theorem reaches_known?_iff {ancestor child : TypeId} {fuel : ℕ} (hfuel : r.types.length ≤ fuel) :
    r.reaches ancestor fuel (r.known? child) = true ↔
      Relation.TransGen (Linked r.known?) child ancestor := by
  rw [reaches_iff, transGen_iff_along]
  constructor
  · rintro ⟨k, -, hk⟩
    exact ⟨k, hk⟩
  · rintro ⟨k, hk⟩
    obtain ⟨j, hj, hreached⟩ := exists_along_lt (fun _ => lt_of_known?) hk
    exact ⟨j, hj.trans_le hfuel, hreached⟩

/-- Where every known parent is a type of the registry, so is all that is reached. -/
theorem Closed.lt_of_reached {child : ℕ} {t : ℕ} (hr : r.Closed) (hchild : child < r.types.length)
    (ht : Relation.ReflTransGen (Linked r.known?) child t) : t < r.types.length := by
  induction ht with
  | refl => exact hchild
  | tail _ hlink _ =>
    obtain ⟨d, hd, hp⟩ := Option.bind_eq_some_iff.mp hlink
    exact hr _ _ _ hd hp

/-- Whether a type is an ancestor of another is decided for all known parents, in rings too: it is
one if and only if it is reached by following one or more of them. The bound on the steps is never
felt, for more of them give the same answer, and where known parents exist, only types that exist
are looked at. -/
theorem isChildOf_iff (r : Registry) (child ancestor : TypeId) :
    (r.isChildOf child ancestor = true ↔ Relation.TransGen (Linked r.known?) child ancestor) ∧
    (∀ fuel, r.types.length ≤ fuel →
      r.reaches ancestor fuel (r.known? child) = r.isChildOf child ancestor) ∧
    (r.Closed → child < r.types.length →
      ∀ t, Relation.ReflTransGen (Linked r.known?) child t → (r.get? t).isSome) := by
  have hiff : r.isChildOf child ancestor = true ↔
      Relation.TransGen (Linked r.known?) child ancestor :=
    reaches_known?_iff (Nat.le_succ _)
  refine ⟨hiff, fun fuel hfuel => ?_, fun hr hchild t ht => ?_⟩
  · rw [Bool.eq_iff_iff, hiff, reaches_known?_iff hfuel]
  · have hlt := hr.lt_of_reached hchild ht
    exact Option.isSome_iff_exists.mpr ⟨_, List.getElem?_eq_getElem hlt⟩

/-- Three classes, of which the first leads into a ring of the others. -/
def intoRing : Registry where
  environment := "production"
  types :=
    [{ Descriptor.ofName .hostclass "tail" with resolved := some 1 },
      { Descriptor.ofName .hostclass "ring" with resolved := some 2 },
      { Descriptor.ofName .hostclass "ring::back" with resolved := some 1 }]

/-- The first class has the ring above it but not itself, and the classes of the ring have
themselves above them. -/
theorem isChildOf_iff_intoRing :
    intoRing.Closed ∧ 0 < intoRing.types.length ∧
    intoRing.isChildOf 0 2 = true ∧ intoRing.isChildOf 2 2 = true ∧
    ¬Relation.TransGen (Linked intoRing.known?) 0 0 ∧
    intoRing.reaches 0 50 (intoRing.known? 0) = false ∧
    (∀ t, Relation.ReflTransGen (Linked intoRing.known?) 0 t → (intoRing.get? t).isSome) := by
  have hclosed : intoRing.Closed := by
    intro t d p hd hp
    have hmem : d ∈ intoRing.types := List.mem_of_getElem? hd
    simp only [intoRing, List.mem_cons, List.not_mem_nil, or_false] at hmem
    rcases hmem with rfl | rfl | rfl <;> cases hp <;> exact Nat.lt_of_sub_ne_zero nofun
  have hring : Relation.TransGen (Linked intoRing.known?) 2 2 := .tail (.single rfl) rfl
  have hnot : intoRing.isChildOf 0 0 = false := rfl
  refine ⟨hclosed, Nat.succ_pos _, (isChildOf_iff intoRing 0 2).1.mpr (.head rfl (.single rfl)),
    (isChildOf_iff intoRing 2 2).1.mpr hring, fun h => ?_, ?_,
    (isChildOf_iff intoRing 0 0).2.2 hclosed (Nat.succ_pos _)⟩
  · rw [← (isChildOf_iff intoRing 0 0).1, hnot] at h
    exact Bool.noConfusion h
  · exact ((isChildOf_iff intoRing 0 0).2.1 50 (Nat.le_of_sub_eq_zero rfl)).trans hnot

end Registry

end SiteCatalog
