import SiteCatalog.Proofs.Registry

/-!
# Taking over declarations

A class takes over a further declaration of it step by step: all that may speak against it is looked
at first, and only then do the parent, the documentation and the body change.

Results:
* `run_absorb`: a class is merged with the declaration, or it stays as it is.
* `joined_assoc`, `conflict?_assoc`: three declarations of a class, two of which are joined first.
* `absorb_assoc`: it does not matter which two these are.
-/

namespace SiteCatalog

section Steps

variable {ε σ α β : Type}

/-- Of two changes the second one begins where the first one ends, unless that one fails. -/
theorem change_bind (p : EStateM ε σ α) (k : α → EStateM ε σ β) (s : σ) :
    (p >>= k) s = match p s with
      | .ok a t => k a t
      | .error e t => .error e t := by
  change EStateM.bind p k s = _
  rw [EStateM.bind]
  cases p s <;> rfl

theorem change_get_bind (k : σ → EStateM ε σ α) (s : σ) : (get >>= k) s = k s s :=
  rfl

end Steps

namespace Descriptor

/-! ## Step by step -/

/-- What changes a descriptor step by step. A failure keeps the steps before it. -/
abbrev Change (α : Type) :=
  EStateM CompileError Descriptor α

/-- Fails because of a conflict with a further declaration. -/
def refuse (source : Descriptor) (conflict : MergeConflict) : Change Unit := do
  let d ← get
  throw (.mergeIncompatible (d.kind, d.name) (source.kind, source.name) conflict)

/-- Looks at all that may speak against a further declaration. -/
def review (source : Descriptor) (freezeMain : Bool) : Change Unit := do
  let d ← get
  if d.kind ≠ .hostclass then refuse source (.targetNotClass d.name)
  if source.kind ≠ .hostclass then refuse source (.sourceNotClass source.name)
  if freezeMain ∧ d.name = "" then refuse source .frozenMain
  if let (some mine, some theirs) := (d.parent, source.parent) then
    if Name.normalize mine ≠ Name.normalize theirs then
      refuse source (.differentParents mine theirs)

/-- Takes the body out of a descriptor. -/
def takeBody : Change (Option Body) :=
  modifyGet fun d => (d.body, { d with body := none })

/-- Changes the parent, the documentation and the body, one after the other. -/
def adopt (source : Descriptor) : Change Unit := do
  if (← get).parent.isNone then modify fun d => { d with parent := source.parent }
  modify fun d => { d with doc := d.doc ++ source.doc }
  let mine ← takeBody
  modify fun d => { d with body := joinBodies mine source.body }

/-- Takes over a further declaration. -/
def absorb (source : Descriptor) (freezeMain : Bool) : Change Unit := do
  review source freezeMain
  adopt source

variable {a b c d d' m source : Descriptor} {freeze : Bool} {e : CompileError}

/-- A review changes nothing and stops at the first conflict. -/
theorem run_review (source : Descriptor) (freeze : Bool) (d : Descriptor) :
    review source freeze d = match d.conflict? source freeze with
      | some conflict =>
        .error (.mergeIncompatible (d.kind, d.name) (source.kind, source.name) conflict) d
      | none => .ok () d := by
  -- the conflicts are looked for in the same order on both sides, each after the others are excluded
  rw [review, change_get_bind, conflict?]
  by_cases hd : d.kind ≠ .hostclass
  · rw [if_pos hd, if_pos hd]
    rfl
  rw [if_neg hd, if_neg hd]
  by_cases hsource : source.kind ≠ .hostclass
  · rw [if_pos hsource, if_pos hsource]
    rfl
  rw [if_neg hsource, if_neg hsource]
  by_cases hmain : freeze ∧ d.name = ""
  · rw [if_pos hmain, if_pos hmain]
    rfl
  rw [if_neg hmain, if_neg hmain]
  cases d.parent with
  | none => rfl
  | some mine =>
    cases source.parent with
    | none => rfl
    | some theirs =>
      dsimp only
      by_cases hparents : Name.normalize mine = Name.normalize theirs
      · rw [if_neg (not_not.mpr hparents), if_pos hparents]
        rfl
      · rw [if_pos hparents, if_neg hparents]
        rfl

/-- The steps together join the declaration with the class. -/
theorem run_adopt (source d : Descriptor) : adopt source d = .ok () (d.joined source) := by
  rw [adopt, change_get_bind, joined]
  cases hparent : d.parent with
  | none => rfl
  | some mine =>
    rw [Option.some_or, ← hparent, if_neg (by rw [hparent]; exact Bool.false_ne_true)]
    rfl

/-- A class is merged with the declaration, or it stays as it is. -/
theorem run_absorb (source : Descriptor) (freeze : Bool) (d : Descriptor) :
    absorb source freeze d = match d.merge source freeze with
      | .ok m => .ok () m
      | .error e => .error e d := by
  rw [absorb, change_bind, run_review, merge]
  cases d.conflict? source freeze with
  | none => exact run_adopt source d
  | some conflict => rfl

theorem absorb_eq_ok : absorb source freeze d = .ok () m ↔ d.merge source freeze = .ok m := by
  rw [run_absorb]
  cases d.merge source freeze <;> simp

theorem eq_of_absorb_eq_error (h : absorb source freeze d = .error e d') : d' = d := by
  rw [run_absorb] at h
  cases hmerge : d.merge source freeze with
  | ok m =>
    rw [hmerge] at h
    cases h
  | error e' =>
    rw [hmerge] at h
    cases h
    rfl

/-! ## Three declarations -/

@[simp] theorem joined_kind (d source : Descriptor) : (d.joined source).kind = d.kind :=
  rfl

@[simp] theorem joined_name (d source : Descriptor) : (d.joined source).name = d.name :=
  rfl

@[simp] theorem joined_parent (d source : Descriptor) :
    (d.joined source).parent = d.parent.or source.parent :=
  rfl

theorem joinBodies_assoc (a b c : Option Body) :
    joinBodies (joinBodies a b) c = joinBodies a (joinBodies b c) := by
  cases a with
  | none => rfl
  | some a =>
    cases b with
    | none => rfl
    | some b =>
      cases c with
      | none => rfl
      | some c => exact congrArg (some ∘ Body.sequence) (List.append_assoc ..)

theorem joined_assoc (a b c : Descriptor) :
    (a.joined b).joined c = a.joined (b.joined c) := by
  simp only [joined, Option.or_assoc, String.append_assoc, joinBodies_assoc]

/-- At most one of two parents is named, or both are names of the same one. -/
def ParentsAgree (p q : Option String) : Prop :=
  ∀ mine theirs, p = some mine → q = some theirs → Name.normalize mine = Name.normalize theirs

@[simp] theorem parentsAgree_none_left (p : Option String) : ParentsAgree none p :=
  nofun

@[simp] theorem parentsAgree_none_right (p : Option String) : ParentsAgree p none :=
  nofun

@[simp] theorem parentsAgree_some {p q : String} :
    ParentsAgree (some p) (some q) ↔ Name.normalize p = Name.normalize q := by
  simp [ParentsAgree]

/-- It does not matter which of three parents are compared first. -/
theorem parentsAgree_assoc (p q r : Option String) :
    ParentsAgree p q ∧ ParentsAgree (p.or q) r ↔ ParentsAgree q r ∧ ParentsAgree p (q.or r) := by
  cases p with
  | none => simp
  | some p =>
    cases q with
    | none => simp
    | some q =>
      cases r with
      | none => simp
      | some r =>
        simp only [Option.some_or, parentsAgree_some]
        constructor
        · rintro ⟨hq, hr⟩
          exact ⟨hq.symm.trans hr, hq⟩
        · rintro ⟨hr, hq⟩
          exact ⟨hq, hq.trans hr⟩

/-- Whether the unnamed class is frozen is asked of the first of two declarations, so the first two
of three have to have the same name. -/
theorem conflict?_assoc (hname : b.name = a.name) (c : Descriptor) (freeze : Bool) :
    a.conflict? b freeze = none ∧ (a.joined b).conflict? c freeze = none ↔
      b.conflict? c freeze = none ∧ a.conflict? (b.joined c) freeze = none := by
  have hparents := parentsAgree_assoc a.parent b.parent c.parent
  unfold ParentsAgree at hparents
  simp only [conflict?_eq_none, joined_kind, joined_name, joined_parent, hname]
  tauto

/-- A class becomes by a further declaration what it is merged to. Three declarations of a class are
merged or conflict with each other whichever two of them are merged first, and become the same
descriptor. A class that is not merged with a declaration stays as it is. -/
theorem absorb_assoc :
    (∀ (d source m : Descriptor) (freeze : Bool),
      absorb source freeze d = .ok () m ↔ d.merge source freeze = .ok m) ∧
    (∀ (a b c : Descriptor) (freeze : Bool), b.name = a.name → ∀ m,
      (do absorb b freeze; absorb c freeze : Change Unit) a = .ok () m ↔
        ∃ bc, absorb c freeze b = .ok () bc ∧ absorb bc freeze a = .ok () m) ∧
    ∀ (d source d' : Descriptor) (freeze : Bool) (e : CompileError),
      absorb source freeze d = .error e d' → d' = d := by
  refine ⟨fun d source m freeze => absorb_eq_ok, fun a b c freeze hname m => ?_,
    fun d source d' freeze e => eq_of_absorb_eq_error⟩
  have hconflict := conflict?_assoc hname c freeze
  calc (do absorb b freeze; absorb c freeze : Change Unit) a = .ok () m
      ↔ ∃ ab, absorb b freeze a = .ok () ab ∧ absorb c freeze ab = .ok () m := by
        rw [change_bind]
        cases absorb b freeze a <;> simp
    _ ↔ a.conflict? b freeze = none ∧ (a.joined b).conflict? c freeze = none ∧
          m = (a.joined b).joined c := by
        simp only [absorb_eq_ok, merge_eq_ok, and_assoc, exists_and_left, exists_eq_left]
    _ ↔ b.conflict? c freeze = none ∧ a.conflict? (b.joined c) freeze = none ∧
          m = a.joined (b.joined c) := by
        rw [joined_assoc, ← and_assoc, hconflict, and_assoc]
    _ ↔ ∃ bc, absorb c freeze b = .ok () bc ∧ absorb bc freeze a = .ok () m := by
        simp only [absorb_eq_ok, merge_eq_ok, and_assoc, exists_and_left, exists_eq_left]

/-- A class with two bodies but no parent. -/
def server : Descriptor :=
  { ofName .hostclass "web" with
    doc := "Serves pages."
    body := some (.sequence [.code (.includes ["ntp"]), .code (.includes ["ssh"])]) }

/-- The same class with a parent that is looked up at the top. -/
def proxy : Descriptor :=
  { ofName .hostclass "web" with
    parent := some "::base"
    doc := " Forwards requests."
    body := some (.code (.includes ["tls"])) }

/-- The same class without documentation and with another name of its parent. -/
def cacheBelow (parent : String) : Descriptor :=
  { ofName .hostclass "web" with
    parent := some parent
    body := some (.sequence [.code (.includes ["disk"])]) }

/-- Two names of one parent agree, and the first one is kept; the name of another parent is
refused. -/
theorem absorb_assoc_server : proxy.name = server.name ∧
    (∃ m bc,
      (do absorb proxy false; absorb (cacheBelow "base") false : Change Unit) server = .ok () m ∧
      absorb (cacheBelow "base") false proxy = .ok () bc ∧ absorb bc false server = .ok () m ∧
      m.parent = some "::base" ∧ m.doc = "Serves pages. Forwards requests." ∧
      m.body = some (.sequence [.code (.includes ["ntp"]), .code (.includes ["ssh"]),
        .code (.includes ["tls"]), .code (.includes ["disk"])])) ∧
    ∃ e d, absorb (cacheBelow "store") false proxy = .error e d ∧ d = proxy := by
  obtain ⟨hmerges, hassoc, hfailed⟩ := absorb_assoc
  refine ⟨rfl, ?_, ?_⟩
  · have hbc : absorb (cacheBelow "base") false proxy = .ok () (proxy.joined (cacheBelow "base")) :=
      (hmerges ..).mpr (merge_eq_ok.mpr ⟨by decide +kernel, rfl⟩)
    have hm : absorb (proxy.joined (cacheBelow "base")) false server =
        .ok () (server.joined (proxy.joined (cacheBelow "base"))) :=
      (hmerges ..).mpr (merge_eq_ok.mpr ⟨by decide +kernel, rfl⟩)
    have hturn := (hassoc server proxy (cacheBelow "base") false rfl _).mpr ⟨_, hbc, hm⟩
    exact ⟨_, _, hturn, hbc, hm, rfl, rfl, rfl⟩
  · have hconflict : proxy.conflict? (cacheBelow "store") false =
        some (.differentParents "::base" "store") := by decide +kernel
    cases hrun : absorb (cacheBelow "store") false proxy with
    | ok _ m =>
      obtain ⟨hnone, -⟩ := merge_eq_ok.mp ((hmerges ..).mp hrun)
      cases hconflict.symm.trans hnone
    | error e d => exact ⟨e, d, rfl, hfailed _ _ _ _ _ hrun⟩

end Descriptor

end SiteCatalog
