import SiteCatalog.Proofs.Documents
import SiteCatalog.Proofs.JsonText
import SiteCatalog.Proofs.Names
import SiteCatalog.TypeDocument.Json

/-!
# Reading type documents back

What is written of a descriptor says all of it but the body: the tree of its document is read as the
document, and the descriptor is restored from that. Null stands both for an undefined value and for
a parameter without a default, but never for an expression. The attributes that every type accepts
are listed with the parameters and taken away again, which is why a parameter of that name is lost
if it has no default.

Results:
* `Value.ofJson?_toJson`, `Expr.readJson_toJson`: values and expressions are read back.
* `TypeDocument.ofJson?_toJson`: a document is read back.
* `TypeDocument.restore_ofDescriptor`: a descriptor is restored from its document.
* `TypeDocument.restore_of_json`: both together, from the printed text on.
-/

namespace SiteCatalog

/-- What has been written one by one is read back one by one. -/
theorem mapM_map {α β γ : Type} {f : α → β} {g : α → γ} {read : β → Option γ} {xs : List α}
    (h : ∀ x ∈ xs, read (f x) = some (g x)) : (xs.map f).mapM read = some (xs.map g) := by
  induction xs with
  | nil => rfl
  | cons x xs ih =>
    rw [List.map_cons, List.mapM_cons, h x List.mem_cons_self,
      ih fun y hy => h y (List.mem_cons_of_mem _ hy)]
    rfl

/-! ## Numbers and values -/

namespace Number

/-- An integer is written as the number that it is, if it is in the range of numbers. -/
theorem exists_ofInt? {i : Int} (hlow : -0x8000000000000000 ≤ i) (hhigh : i < UInt64.size) :
    ∃ n, ofInt? i = some n ∧ n.toInt? = some i := by
  rw [ofInt?]
  by_cases hi : 0 ≤ i
  · refine ⟨_, (if_pos hi).trans (if_pos hhigh), ?_⟩
    have hsize : i.toNat < UInt64.size := by omega
    rw [toInt?, UInt64.toNat_ofNat_of_lt' hsize, Int.toNat_of_nonneg hi]
  · refine ⟨_, (if_neg hi).trans (if_pos hlow), ?_⟩
    rw [toInt?, Int64.toInt_ofInt_of_le hlow (by omega)]

end Number

namespace Value

theorem ofJson?_int (i : Int64) : ofJson? (Data.int i.toInt).toJson = some (.int i) := by
  obtain ⟨n, hn, hi⟩ := Number.exists_ofInt? i.le_toInt (by have := i.toInt_lt; simp; omega)
  rw [Data.toJson, hn]
  dsimp only
  rw [ofJson?, Number.toInt64?_eq hi, Option.map_some]

mutual

/-- A value is read back. -/
theorem ofJson?_toJson : ∀ v : Value, ofJson? v.toData.toJson = some v
  | .undefined => rfl
  | .bool _ => rfl
  | .int i => ofJson?_int i
  | .str _ => rfl
  | .array items => by
    rw [toData, Data.toJson, ofJson?, ofJsonItems?_toJson items, Option.map_some]

theorem ofJsonItems?_toJson : ∀ vs : List Value,
    ofJsonItems? (Data.toJsonItems (toDataItems vs)) = some vs
  | [] => rfl
  | v :: vs => by
    rw [toDataItems, Data.toJsonItems, ofJsonItems?, ofJson?_toJson v, ofJsonItems?_toJson vs]
    rfl

end

end Value

/-! ## Expressions -/

namespace Data

theorem toJsonItems_eq (items : List Data) : toJsonItems items = items.map toJson := by
  induction items with
  | nil => rfl
  | cons d rest ih => rw [toJsonItems, ih, List.map_cons]

theorem toJsonFields_eq (fields : List (String × Data)) :
    toJsonFields fields = fields.map fun field => (field.1, field.2.toJson) := by
  induction fields with
  | nil => rfl
  | cons field rest ih => rw [toJsonFields, ih, List.map_cons]

end Data

namespace Json

variable {fuel : ℕ}

/-- What bounds the depth of an array bounds that of its items and is not zero. -/
theorem exists_of_depth_array {items : List Json} (h : (array items).depth ≤ fuel) :
    ∃ n, fuel = n + 1 ∧ depthItems items ≤ n := by
  rw [depth] at h
  exact ⟨fuel - 1, by omega, by omega⟩

/-- What bounds the depth of an object bounds that of its members and is not zero. -/
theorem exists_of_depth_object {members : List (String × Json)}
    (h : (object members).depth ≤ fuel) : ∃ n, fuel = n + 1 ∧ depthMembers members ≤ n := by
  rw [depth] at h
  exact ⟨fuel - 1, by omega, by omega⟩

theorem exists_of_depth_tagged {tag : String} {payload : Data}
    (h : (Data.tagged tag payload).toJson.depth ≤ fuel) :
    ∃ n, fuel = n + 1 ∧ payload.toJson.depth ≤ n := by
  obtain ⟨n, rfl, hn⟩ := exists_of_depth_object h
  exact ⟨n, rfl, (Nat.le_max_left _ _).trans hn⟩

/-- What bounds the depth of a record bounds that of its fields. -/
theorem depth_le_of_record {fields : List (String × Data)}
    (h : (Data.record fields).toJson.depth ≤ fuel) :
    ∀ field ∈ fields, field.2.toJson.depth ≤ fuel := by
  have hmembers : ∀ field ∈ fields, field.2.toJson.depth ≤
      depthMembers (Data.toJsonFields fields) := by
    clear h
    induction fields with
    | nil => exact fun _ hmem => nomatch hmem
    | cons field rest ih =>
      refine List.forall_mem_cons.mpr ⟨Nat.le_max_left _ _, fun other hmem => ?_⟩
      exact (ih other hmem).trans (Nat.le_max_right _ _)
  obtain ⟨n, rfl, hn⟩ := exists_of_depth_object h
  exact fun field hmem => ((hmembers field hmem).trans hn).trans (Nat.le_succ n)

end Json

namespace Expr

mutual

/-- Whether no declaration in an expression names a parameter twice. -/
def isDistinct : Expr → Bool
  | .literal _ => true
  | .var _ => true
  | .concat parts => areDistinct parts
  | .list items => areDistinct items
  | .block statements => areDistinct statements
  | .assign _ value => isDistinct value
  | .includes _ => true
  | .classDecl _ params => decide (Table.keys params).Nodup && paramsDistinct params
  | .declare _ title params =>
    isDistinct title && decide (Table.keys params).Nodup && paramsDistinct params

/-- Whether no declaration in some expressions names a parameter twice. -/
def areDistinct : List Expr → Bool
  | [] => true
  | e :: rest => isDistinct e && areDistinct rest

/-- Whether no declaration in the expressions of parameters names a parameter twice. -/
def paramsDistinct : List (String × Expr) → Bool
  | [] => true
  | (_, e) :: rest => isDistinct e && paramsDistinct rest

end

theorem strings?_toJson (names : List String) :
    (Data.strings names).toJson.strings? = some names := by
  have hitems : (names.map fun s => Json.string s).mapM Json.string? = some (names.map id) :=
    mapM_map fun _ _ => rfl
  rw [Data.strings, Data.toJson, Data.toJsonItems_eq, List.map_map]
  exact hitems.trans (congrArg some (List.map_id _))

theorem readJsonItems_eq {es : List Expr} {fuel : ℕ}
    (hfuel : (Data.list (toDataItems es)).toJson.depth ≤ fuel)
    (h : ∀ {n}, Json.depthItems (Data.toJsonItems (toDataItems es)) ≤ n →
      (Data.toJsonItems (toDataItems es)).mapM (readJson n) = some es) :
    readJsonItems fuel (Data.list (toDataItems es)).toJson = some es := by
  obtain ⟨n, rfl, hn⟩ := Json.exists_of_depth_array hfuel
  rw [Data.toJson, readJsonItems, h hn]

theorem readJsonParams_eq {params : Table Expr} {fuel : ℕ} (hdistinct : params.keys.Nodup)
    (hfuel : (Data.record (toDataFields params)).toJson.depth ≤ fuel)
    (h : ∀ {n}, Json.depthMembers (Data.toJsonFields (toDataFields params)) ≤ n →
      (Data.toJsonFields (toDataFields params)).mapM
        (fun (name, j) => (readJson n j).map (name, ·)) = some params) :
    readJsonParams fuel (Data.record (toDataFields params)).toJson = some params := by
  obtain ⟨n, rfl, hn⟩ := Json.exists_of_depth_object hfuel
  rw [Data.toJson, readJsonParams, h hn]
  exact congrArg some (Table.ofList_eq hdistinct)

mutual

/-- An expression is read back. -/
theorem readJson_toJson : ∀ (e : Expr) {fuel : ℕ}, e.isDistinct = true →
    e.toData.toJson.depth ≤ fuel → readJson fuel e.toData.toJson = some e
  | .literal v, fuel, _, hfuel => by
    obtain ⟨n, rfl, -⟩ := Json.exists_of_depth_tagged hfuel
    rw [toData, Data.toJson, readJson, Value.ofJson?_toJson, Option.map_some]
  | .var name, fuel, _, hfuel => by
    obtain ⟨n, rfl, -⟩ := Json.exists_of_depth_tagged hfuel
    rfl
  | .concat parts, fuel, hd, hfuel => by
    obtain ⟨n, rfl, hn⟩ := Json.exists_of_depth_tagged hfuel
    rw [toData, Data.toJson, readJson, readJsonItems_eq hn (mapM_readJson parts hd),
      Option.map_some]
  | .list items, fuel, hd, hfuel => by
    obtain ⟨n, rfl, hn⟩ := Json.exists_of_depth_tagged hfuel
    rw [toData, Data.toJson, readJson, readJsonItems_eq hn (mapM_readJson items hd),
      Option.map_some]
  | .block statements, fuel, hd, hfuel => by
    obtain ⟨n, rfl, hn⟩ := Json.exists_of_depth_tagged hfuel
    rw [toData, Data.toJson, readJson, readJsonItems_eq hn (mapM_readJson statements hd),
      Option.map_some]
  | .assign name value, fuel, hd, hfuel => by
    obtain ⟨n, rfl, hn⟩ := Json.exists_of_depth_tagged hfuel
    have hvalue := readJson_toJson value hd (Json.depth_le_of_record hn ("value", _) (by simp))
    have hfields : (Data.record [("name", .string name),
        ("value", value.toData)]).toJson.fields? ["name", "value"] =
      some [some (.string name), some value.toData.toJson] := rfl
    rw [toData, Data.toJson, readJson, hfields]
    dsimp only
    rw [hvalue]
    rfl
  | .includes names, fuel, _, hfuel => by
    obtain ⟨n, rfl, -⟩ := Json.exists_of_depth_tagged hfuel
    rw [toData, Data.toJson, readJson, strings?_toJson, Option.map_some]
  | .classDecl name params, fuel, hd, hfuel => by
    obtain ⟨n, rfl, hn⟩ := Json.exists_of_depth_tagged hfuel
    rw [isDistinct, Bool.and_eq_true, decide_eq_true_eq] at hd
    have hparams := readJsonParams_eq hd.1 (Json.depth_le_of_record hn ("params", _) (by simp))
      (mapM_readJsonParams params hd.2)
    have hfields : (Data.record [("name", .string name),
        ("params", .record (toDataFields params))]).toJson.fields? ["name", "params"] =
      some [some (.string name), some (Data.record (toDataFields params)).toJson] := rfl
    rw [toData, Data.toJson, readJson, hfields]
    dsimp only
    rw [hparams]
    rfl
  | .declare type title params, fuel, hd, hfuel => by
    obtain ⟨n, rfl, hn⟩ := Json.exists_of_depth_tagged hfuel
    rw [isDistinct, Bool.and_eq_true, Bool.and_eq_true, decide_eq_true_eq] at hd
    have htitle := readJson_toJson title hd.1.1
      (Json.depth_le_of_record hn ("title", _) (by simp))
    have hparams := readJsonParams_eq hd.1.2 (Json.depth_le_of_record hn ("params", _) (by simp))
      (mapM_readJsonParams params hd.2)
    have hfields : (Data.record [("type_name", .string type), ("title", title.toData),
        ("params", .record (toDataFields params))]).toJson.fields?
          ["type_name", "title", "params"] =
      some [some (.string type), some title.toData.toJson,
        some (Data.record (toDataFields params)).toJson] := rfl
    rw [toData, Data.toJson, readJson, hfields]
    dsimp only
    rw [htitle, hparams]
    rfl

theorem mapM_readJson : ∀ (es : List Expr) {fuel : ℕ}, areDistinct es = true →
    Json.depthItems (Data.toJsonItems (toDataItems es)) ≤ fuel →
    (Data.toJsonItems (toDataItems es)).mapM (readJson fuel) = some es
  | [], _, _, _ => rfl
  | e :: rest, fuel, hd, hfuel => by
    rw [areDistinct, Bool.and_eq_true] at hd
    obtain ⟨he, hrest⟩ := Nat.max_le.mp hfuel
    rw [toDataItems, Data.toJsonItems, List.mapM_cons, readJson_toJson e hd.1 he,
      mapM_readJson rest hd.2 hrest]
    rfl

theorem mapM_readJsonParams : ∀ (params : List (String × Expr)) {fuel : ℕ},
    paramsDistinct params = true →
    Json.depthMembers (Data.toJsonFields (toDataFields params)) ≤ fuel →
    (Data.toJsonFields (toDataFields params)).mapM
      (fun (name, j) => (readJson fuel j).map (name, ·)) = some params
  | [], _, _, _ => rfl
  | (name, e) :: rest, fuel, hd, hfuel => by
    rw [paramsDistinct, Bool.and_eq_true] at hd
    obtain ⟨he, hrest⟩ := Nat.max_le.mp hfuel
    rw [toDataFields, Data.toJsonFields, List.mapM_cons]
    dsimp only
    rw [readJson_toJson e hd.1 he, mapM_readJsonParams rest hd.2 hrest]
    rfl

end

end Expr

/-! ## Documents -/

/-- The fields of a record that have a value. -/
def present {α : Type} (fields : List (String × Option α)) : List (String × α) :=
  fields.flatMap fun field => (field.2.map (field.1, ·)).toList

theorem map_present {α β : Type} {f : α → β} (fields : List (String × Option α)) :
    (present fields).map (fun field => (field.1, f field.2)) =
      present (fields.map fun field => (field.1, field.2.map f)) := by
  induction fields with
  | nil => rfl
  | cons field rest ih =>
    rw [present, List.flatMap_cons, List.map_append]
    refine congrArg₂ _ ?_ ih
    obtain ⟨name, value⟩ := field
    cases value <;> rfl

theorem mem_keys_present {α : Type} {name : String} {fields : List (String × Option α)}
    (h : name ∈ (present fields).map (·.1)) : name ∈ fields.map (·.1) := by
  obtain ⟨member, hmem, rfl⟩ := List.mem_map.mp h
  obtain ⟨field, hfield, hvalue⟩ := List.mem_flatMap.mp hmem
  obtain ⟨a, -, rfl⟩ := Option.map_eq_some_iff.mp (Option.mem_toList.mp hvalue)
  exact List.mem_map_of_mem hfield

namespace Json

theorem field?_of_not_mem {name : String} {members : List (String × Json)}
    (h : name ∉ members.map (·.1)) : field? name members = some none := by
  induction members with
  | nil => rfl
  | cons member rest ih =>
    rw [List.map_cons, List.mem_cons, not_or] at h
    rw [field?, if_neg (Ne.symm h.1), ih h.2]

theorem field?_present {fields : List (String × Option Json)}
    (hdistinct : (fields.map (·.1)).Nodup) :
    ∀ field ∈ fields, field? field.1 (present fields) = some field.2 := by
  induction fields with
  | nil => exact fun _ h => nomatch h
  | cons field rest ih =>
    obtain ⟨hnew, hrest⟩ := List.nodup_cons.mp hdistinct
    have hnone : field? field.1 (present rest) = some none :=
      field?_of_not_mem fun h => hnew (mem_keys_present h)
    obtain ⟨name, value⟩ := field
    refine List.forall_mem_cons.mpr ⟨?_, fun other hmem => ?_⟩
    · cases value with
      | none => exact hnone
      | some j =>
        show field? name ((name, j) :: present rest) = _
        rw [field?, if_pos rfl, hnone]
    · cases value with
      | none => exact ih hrest other hmem
      | some j =>
        have hne : name ≠ other.1 := fun heq =>
          hnew (List.mem_map.mpr ⟨other, hmem, heq.symm⟩)
        show field? other.1 ((name, j) :: present rest) = _
        rw [field?, if_neg hne, ih hrest other hmem]

/-- The fields of a record are read back, those that are left out as missing. -/
theorem fields?_toJson_present {fields : List (String × Option Data)}
    (hdistinct : (fields.map (·.1)).Nodup) :
    (Data.record (present fields)).toJson.fields? (fields.map (·.1)) =
      some (fields.map fun field => field.2.map Data.toJson) := by
  have hread : ∀ members : List (String × Option Json), (members.map (·.1)).Nodup →
      (object (present members)).fields? (members.map (·.1)) = some (members.map (·.2)) :=
    fun _ hnodup => mapM_map (field?_present hnodup)
  have hnames : (fields.map fun field => (field.1, field.2.map Data.toJson)).map (·.1) =
      fields.map (·.1) := by
    rw [List.map_map]
    rfl
  have hfields := hread _ (hnames ▸ hdistinct)
  rw [hnames, List.map_map] at hfields
  rw [Data.toJson, Data.toJsonFields_eq, map_present]
  exact hfields

end Json

namespace TypeDocument

/-- The fields of a document, of which the last five are optional. -/
def fields (doc : TypeDocument) : List (String × Option Data) :=
  [("name", some (.string doc.name)), ("kind", some (.string doc.kind.documentText)),
    ("arguments", some (.record (doc.arguments.map fun (name, default) =>
      (name, defaultData default)))),
    ("parent", doc.parent.map .string),
    ("doc", if doc.doc = "" then none else some (.string doc.doc)),
    ("module", doc.moduleName.map .string), ("file", doc.file.map .string),
    ("line", doc.line.map fun n : ℕ => .int n)]

theorem toData_eq (doc : TypeDocument) : doc.toData = .record (present doc.fields) := by
  have hoptional : ∀ name value, optionalField name value =
      ((value.map Data.string).map (name, ·)).toList := by
    intro name value
    cases value <;> rfl
  have hdoc : (if doc.doc = "" then [] else [("doc", .string doc.doc)]) =
      (((if doc.doc = "" then none else some (Data.string doc.doc)).map ("doc", ·)).toList) := by
    split <;> rfl
  rw [toData, fields, hoptional, hoptional, hoptional, hdoc]
  cases doc.line <;>
    simp only [present, List.flatMap_cons, List.flatMap_nil, List.append_nil, Option.map_some,
      Option.map_none, Option.toList_some, Option.toList_none, List.append_assoc, List.cons_append,
      List.nil_append]

variable {doc : TypeDocument}

theorem kindOfJson?_toJson (kind : Kind) :
    kindOfJson? (Data.string kind.documentText).toJson = some kind := by
  cases kind <;> rfl

/-- The tree of an expression is never null, so that a default is not taken for a missing one. -/
theorem toJson_ne_null (e : Expr) : e.toData.toJson ≠ .null := by
  cases e <;> rintro ⟨⟩

theorem defaultOfJson?_toJson {default : Option Expr} (h : ∀ e ∈ default, e.isDistinct = true) :
    defaultOfJson? (defaultData default).toJson = some default := by
  cases default with
  | none => rfl
  | some e =>
    have hread : Expr.ofJson? e.toData.toJson = some e := Expr.readJson_toJson e (h e rfl) le_rfl
    rw [defaultData, defaultOfJson?.eq_2 _ (toJson_ne_null e), hread, Option.map_some]

theorem argumentsOfJson?_toJson {arguments : Table (Option Expr)}
    (hdistinct : arguments.keys.Nodup)
    (hdefaults : ∀ a ∈ arguments, ∀ e ∈ a.2, e.isDistinct = true) :
    argumentsOfJson? (Data.record (arguments.map fun (name, default) =>
      (name, defaultData default))).toJson = some arguments := by
  have hentries : (arguments.map fun a => (a.1, (defaultData a.2).toJson)).mapM
      (fun (name, j) => (defaultOfJson? j).map (name, ·)) = some (arguments.map id) := by
    refine mapM_map fun a ha => ?_
    dsimp only
    rw [defaultOfJson?_toJson (hdefaults a ha)]
    rfl
  rw [Data.toJson, Data.toJsonFields_eq, List.map_map, argumentsOfJson?]
  refine (congrArg (· >>= fun entries => some (Table.ofList entries)) hentries).trans ?_
  rw [List.map_id]
  exact congrArg some (Table.ofList_eq hdistinct)

theorem optionalString?_toJson (value : Option String) :
    orDefault none Json.optionalString? ((value.map Data.string).map Data.toJson) = some value := by
  cases value <;> rfl

theorem string?_toJson_doc (text : String) :
    orDefault "" Json.string?
      ((if text = "" then none else some (Data.string text)).map Data.toJson) = some text := by
  split
  · next h => rw [h]; rfl
  · rfl

theorem lineOfJson?_toJson {line : Option ℕ} (h : ∀ n ∈ line, n < UInt64.size) :
    orDefault none lineOfJson? ((line.map fun n : ℕ => Data.int n).map Data.toJson) =
      some line := by
  cases line with
  | none => rfl
  | some n =>
    have hn : n < UInt64.size := h n rfl
    have hnumber : Number.ofInt? n = some (.unsigned (UInt64.ofNat n)) := by
      rw [Number.ofInt?, if_pos (Int.natCast_nonneg n), if_pos (by exact_mod_cast hn),
        Int.toNat_natCast]
    rw [Option.map_some, Option.map_some, Data.toJson, hnumber]
    show some (some (UInt64.ofNat n).toNat) = _
    rw [UInt64.toNat_ofNat_of_lt' hn]

/-- A type document is read back if names of arguments are distinct and lines are in range. -/
theorem ofJson?_toJson (hdistinct : doc.arguments.keys.Nodup)
    (hdefaults : ∀ a ∈ doc.arguments, ∀ e ∈ a.2, e.isDistinct = true)
    (hline : ∀ n ∈ doc.line, n < UInt64.size) : ofJson? doc.toData.toJson = some doc := by
  have hnames : (doc.fields.map (·.1)).Nodup := by
    show ["name", "kind", "arguments", "parent", "doc", "module", "file", "line"].Nodup
    decide
  have hfields := Json.fields?_toJson_present hnames
  rw [← toData_eq] at hfields
  change Json.fields? ["name", "kind", "arguments", "parent", "doc", "module", "file", "line"]
    doc.toData.toJson = some [_, _, _, _, _, _, _, _] at hfields
  have hname : (Data.string doc.name).toJson.string? = some doc.name := rfl
  have harguments : orDefault [] argumentsOfJson? (some (Data.record (doc.arguments.map
      fun (name, default) => (name, defaultData default))).toJson) = some doc.arguments :=
    argumentsOfJson?_toJson hdistinct hdefaults
  rw [ofJson?, hfields]
  simp only [Option.bind_eq_bind, Option.bind_some, Option.map_some]
  simp only [hname, kindOfJson?_toJson, harguments, optionalString?_toJson, string?_toJson_doc,
    lineOfJson?_toJson hline, Option.bind_some, Option.pure_def]

end TypeDocument

/-! ## Descriptors -/

theorem Pattern.ofSource?_source (p : Pattern) : ofSource? p.source = some p := by
  obtain ⟨source, term, h⟩ := p
  unfold ofSource?
  split
  · next term' h' =>
    rw [h] at h'
    cases h'
    rfl
  · next h' =>
    rw [h] at h'
    cases h'

namespace Descriptor

variable {d : Descriptor}

/-- A descriptor that can be built: from a name or the source of a pattern, with a parent that is
named afterwards and everything else as one likes. No declaration names a parameter twice, and lines
are 64-bit numbers. -/
inductive Constructed : Descriptor → Prop
  | named (kind : Kind) (name : String) : Constructed (ofName kind name)
  | pattern {source : String} {d : Descriptor} : ofPatternSource source = .ok d → Constructed d
  | withParent {d : Descriptor} (parent : String) : Constructed d →
      Constructed (d.withParent parent)
  | filled {d : Descriptor} (parameters : Table (Option Expr)) (body : Option Body)
      (moduleName : Option String) (doc : String) (file : Option String) (line : Option ℕ) :
      Constructed d → parameters.keys.Nodup →
      (∀ p ∈ parameters, ∀ e ∈ p.2, e.isDistinct = true) → (∀ n ∈ line, n < UInt64.size) →
      Constructed { d with parameters, body, moduleName, doc, file, line }

/-- The type that the key of a descriptor names. -/
def bare (d : Descriptor) : Descriptor :=
  match d.pattern with
  | some p => ofPattern p
  | none => ofName d.kind d.name

/-- What documents rely on. -/
structure Restorable (d : Descriptor) : Prop where
  bare : d = { d.bare with
    parent := d.parent, parameters := d.parameters, body := d.body, moduleName := d.moduleName
    doc := d.doc, file := d.file, line := d.line }
  parent : ∀ p ∈ d.parent, parentName p = p
  distinct : d.parameters.keys.Nodup
  defaults : ∀ p ∈ d.parameters, ∀ e ∈ p.2, e.isDistinct = true
  line : ∀ n ∈ d.line, n < UInt64.size

theorem Constructed.restorable (h : d.Constructed) : d.Restorable := by
  induction h with
  | named kind name =>
    refine ⟨?_, nofun, List.nodup_nil, nofun, nofun⟩
    show ofName kind name = ofName kind (Name.normalize name)
    rw [ofName, ofName, Name.normalize_normalize]
  | pattern h =>
    unfold ofPatternSource at h
    split at h
    · cases h
      exact ⟨rfl, nofun, List.nodup_nil, nofun, nofun⟩
    · cases h
  | withParent parent _ ih =>
    refine ⟨?_, ?_, ih.distinct, ih.defaults, ih.line⟩
    · exact congrArg (fun d => { d with parent := some (parentName parent) }) ih.bare
    · rintro _ ⟨⟩
      exact parentName_parentName parent
  | filled parameters body moduleName doc file line _ hdistinct hdefaults hline ih =>
    refine ⟨?_, ih.parent, hdistinct, hdefaults, hline⟩
    exact congrArg (fun d => { d with parameters, body, moduleName, doc, file, line }) ih.bare

end Descriptor

namespace TypeDocument

variable {d : Descriptor}

/-- The attributes that every type accepts are added after the parameters. -/
theorem exists_withMetaparameters {parameters : Table (Option Expr)}
    (h : parameters.keys.Nodup) : ∃ added, withMetaparameters parameters = parameters ++ added ∧
      (parameters ++ added).keys.Nodup ∧ ∀ a ∈ added, a.2 = none ∧ a.1 ∈ metaparameters := by
  have hfold : ∀ (names : List String) (t : Table (Option Expr)), t.keys.Nodup →
      ∃ added, names.foldl (fun t name => if t.has name then t else t.insert name none) t =
          t ++ added ∧ (t ++ added).keys.Nodup ∧ ∀ a ∈ added, a.2 = none ∧ a.1 ∈ names := by
    intro names
    induction names with
    | nil =>
      intro t ht
      exact ⟨[], (List.append_nil t).symm, (List.append_nil t).symm ▸ ht, nofun⟩
    | cons name rest ih =>
      intro t ht
      rw [List.foldl_cons]
      split
      · obtain ⟨added, heq, hdistinct, hadded⟩ := ih t ht
        exact ⟨added, heq, hdistinct, fun a ha => ⟨(hadded a ha).1, .tail _ (hadded a ha).2⟩⟩
      · next hnew =>
        have hnew : name ∉ t.keys := fun h => hnew (Table.has_iff_mem_keys.mpr h)
        rw [Table.insert_of_not_mem hnew]
        obtain ⟨added, heq, hdistinct, hadded⟩ := ih _ (Table.nodup_keys_concat ht hnew none)
        rw [List.append_assoc] at heq hdistinct
        refine ⟨_, heq, hdistinct, List.forall_mem_cons.mpr ⟨⟨rfl, List.mem_cons_self⟩, ?_⟩⟩
        exact fun a ha => ⟨(hadded a ha).1, .tail _ (hadded a ha).2⟩
  exact hfold metaparameters parameters h

/-- What stands between the slashes of the key of a pattern is its source. -/
theorem betweenSlashes?_key (source : String) :
    betweenSlashes? ("/" ++ source ++ "/") = some source := by
  have hlist : ("/" ++ source ++ "/").toList = '/' :: (source.toList ++ ['/']) := by
    simp
  rw [betweenSlashes?, hlist]
  show (if (source.toList ++ ['/']).getLast? = some '/' then _ else none) = _
  rw [List.getLast?_concat, if_pos rfl, List.dropLast_concat, String.ofList_toList]

/-- The attributes that were added are taken away. -/
theorem filter_withMetaparameters {parameters : Table (Option Expr)} (h : parameters.keys.Nodup)
    (hmeta : ∀ p ∈ parameters, p.2 = none → p.1 ∉ metaparameters)
    {keep : String × Option Expr → Bool}
    (hkeep : ∀ p, keep p = (p.2.isSome || !metaparameters.contains p.1)) :
    (withMetaparameters parameters).filter keep = parameters := by
  obtain ⟨added, heq, -, hadded⟩ := exists_withMetaparameters h
  rw [heq, List.filter_append, List.filter_eq_self.mpr, List.filter_eq_nil_iff.mpr,
    List.append_nil]
  · intro a ha
    obtain ⟨hnone, hmem⟩ := hadded a ha
    simp [hkeep, hnone, hmem]
  · intro p hp
    cases hdefault : p.2 with
    | some e => simp [hkeep, hdefault]
    | none => simpa [hkeep, hdefault] using hmeta p hp hdefault

/-- A descriptor is restored from its document, without a body. -/
theorem restore_ofDescriptor (h : d.Restorable)
    (hname : d.kind = .node → d.pattern = none → betweenSlashes? d.name = none)
    (hmeta : ∀ p ∈ d.parameters, p.2 = none → p.1 ∉ metaparameters) :
    (ofDescriptor d).restore = .ok { d with body := none } := by
  have hparent : d.parent.map Descriptor.parentName = d.parent := by
    cases hp : d.parent with
    | none => rfl
    | some p => exact congrArg some (h.parent p hp)
  have hresult : ∀ keep : String × Option Expr → Bool,
      (∀ p, keep p = (p.2.isSome || !metaparameters.contains p.1)) →
      { d.bare with
        parent := d.parent.map Descriptor.parentName
        parameters := (ofDescriptor d).arguments.filter keep
        doc := d.doc, moduleName := d.moduleName, file := d.file, line := d.line } =
      { d with body := none } := by
    intro keep hkeep
    have harguments : (ofDescriptor d).arguments = withMetaparameters d.parameters := by
      rw [ofDescriptor]
    rw [hparent, harguments, filter_withMetaparameters h.distinct hmeta hkeep]
    refine Eq.trans ?_ (congrArg (fun d => { d with body := none }) h.bare.symm)
    rw [Descriptor.bare]
    split <;> rfl
  have hkind : d.kind = d.bare.kind := (congrArg Descriptor.kind h.bare).trans rfl
  obtain hp | ⟨p, hp⟩ := Option.eq_none_or_eq_some d.pattern
  · have hbare : d.bare = .ofName d.kind d.name := by rw [Descriptor.bare, hp]
    have hkey : (ofDescriptor d).name = d.name := by
      show d.key = _
      rw [Descriptor.key, hp]
    unfold restore
    rw [hkey]
    split
    · next source hsource hnode =>
      rw [hname hnode hp] at hsource
      cases hsource
    · show (Except.ok (Descriptor.ofName d.kind d.name) >>= _) = _
      rw [← hbare]
      refine congrArg Except.ok (hresult _ ?_)
      exact fun _ => rfl
  · have hbare : d.bare = .ofPattern p := by rw [Descriptor.bare, hp]
    have hkey : betweenSlashes? (ofDescriptor d).name = some p.source := by
      show betweenSlashes? d.key = _
      rw [Descriptor.key, hp, betweenSlashes?_key]
    rw [hbare] at hkind
    have hnode : (ofDescriptor d).kind = .node := hkind
    have hbase : Descriptor.ofPatternSource p.source = .ok d.bare := by
      rw [Descriptor.ofPatternSource, Pattern.ofSource?_source, hbare]
    unfold restore
    rw [hkey, hnode]
    show (Descriptor.ofPatternSource p.source >>= _) = _
    rw [hbase]
    refine congrArg Except.ok (hresult _ ?_)
    exact fun _ => rfl

/-- The document of a restorable descriptor is one that is read back. -/
theorem ofJson?_ofDescriptor (h : d.Restorable) :
    ofJson? (ofDescriptor d).toData.toJson = some (ofDescriptor d) := by
  obtain ⟨added, heq, hdistinct, hadded⟩ := exists_withMetaparameters h.distinct
  have harguments : (ofDescriptor d).arguments = d.parameters ++ added := by
    rw [ofDescriptor, heq]
  refine ofJson?_toJson (harguments ▸ hdistinct) ?_ h.line
  rw [harguments]
  intro a ha e he
  rcases List.mem_append.mp ha with ha | ha
  · exact h.defaults a ha e he
  · rw [(hadded a ha).1] at he
    cases he

/-- A type that is built from its parts is restored from its printed document, but for its body: its
tree is read as the document, and each of the two texts is if it does not nest deeper than the
reader goes. A node's name must not look like a pattern, and an attribute that every type accepts is
not a parameter without a default. -/
theorem restore_of_json (h : d.Constructed)
    (hname : d.kind = .node → d.pattern = none → betweenSlashes? d.name = none)
    (hmeta : ∀ p ∈ d.parameters, p.2 = none → p.1 ∉ metaparameters) :
    ∃ doc, ofJson? (ofDescriptor d).toData.toJson = some doc ∧
      ((ofDescriptor d).toData.toJson.nesting ≤ Json.maxDepth →
        (Json.parse? (ofDescriptor d).toData.toJson.render).bind ofJson? = some doc ∧
        (Json.parse? (ofDescriptor d).toData.toJson.renderPretty).bind ofJson? = some doc) ∧
      doc.restore = .ok { d with body := none } := by
  have hread := ofJson?_ofDescriptor h.restorable
  refine ⟨ofDescriptor d, hread, fun hdepth => ?_, restore_ofDescriptor h.restorable hname hmeta⟩
  obtain ⟨hline, hpretty⟩ := (ofDescriptor d).toData.parse?_toJson hdepth
  rw [hline, hpretty]
  exact ⟨hread, hread⟩

/-- A parameter with the name of an attribute that every type accepts is lost without a default. -/
example : (ofDescriptor ((Descriptor.ofName .define "vhost").withParameter "tag" none)).restore =
    .ok (.ofName .define "vhost") := by
  rfl

/-- A node with a parent that a pattern selects, and with defaults of several kinds. -/
def gateway : Descriptor :=
  { (Descriptor.ofName .node "::GW01.example.com").withParent "/^Edge/" with
    parameters := [
      ("port", some (.literal (.int 8080))), ("owner", none),
      ("docroot", some (.concat [.literal (.str "/srv/"), .var "title"])),
      ("tag", some (.list [.literal .undefined, .literal (.array [.bool true, .str "\n"])])),
      ("setup", some (.block [.assign "x" (.var "::y"), .includes ["ntp"], .classDecl "ssl" [],
        .declare "file" (.var "docroot") [("mode", .literal (.int (-1)))]]))]
    body := some (.code (.block [])), moduleName := some "edge", doc := "The \"front\" door."
    file := some "site.yaml", line := some 12 }

theorem constructed_gateway : gateway.Constructed := by
  refine .filled _ _ _ _ _ _ (.withParent _ (.named _ _)) (by decide) ?_ (by rintro n ⟨⟩; decide)
  simp only [List.forall_mem_cons, List.not_mem_nil, false_imp_iff, implies_true, and_true]
  refine ⟨?_, nofun, ?_, ?_, ?_⟩ <;> rintro _ ⟨⟩ <;> decide

/-- The gateway is restored from its text on one line. -/
theorem restore_of_json_gateway : ∃ doc,
    (Json.parse? (ofDescriptor gateway).toData.toJson.render).bind ofJson? = some doc ∧
      doc.restore = .ok { gateway with body := none } := by
  obtain ⟨doc, -, htext, hrestore⟩ := restore_of_json constructed_gateway
    (fun _ _ => by decide) (by decide)
  exact ⟨doc, (htext (by decide)).1, hrestore⟩

end TypeDocument

end SiteCatalog
