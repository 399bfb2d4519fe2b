import Mathlib.Data.Option.Basic
import Mathlib.Data.String.Basic
import SchemaQuery.Form.Config
import SchemaQuery.Proofs.IdOrder
import SchemaQuery.Proofs.KeyedTraits

namespace SchemaQuery

namespace Node

inductive Ordered : Node → Prop
  | null : Ordered .null
  | bool (b : Bool) : Ordered (.bool b)
  | int (n : Int) : Ordered (.int n)
  | float (x : Binary64) : Ordered (.float x)
  | text (s : String) : Ordered (.text s)
  | array {items : List Node} (h : ∀ item ∈ items, Ordered item) : Ordered (.array items)
  | object {fields : List (String × Node)}
      (names : (fields.map Prod.fst).Pairwise fun a b => compare a b = .lt)
      (values : ∀ field ∈ fields, Ordered field.2) : Ordered (.object fields)

theorem Ordered.of_record? {n : Node} {names : List String} {fields : List (String × Node)}
    (hn : n.Ordered) (h : n.record? names = some fields) : ∀ field ∈ fields, field.2.Ordered := by
  cases hn with
  | object _ hvalues =>
      cases h
      exact hvalues
  | array hitems =>
      obtain ⟨-, hzip⟩ := Option.ite_none_right_eq_some.mp h
      obtain rfl := Option.some.inj hzip
      rintro ⟨name, item⟩ hfield
      exact hitems item (List.of_mem_zip hfield).2
  | null | bool | int | float | text => cases h

theorem lt_of_number? {bound k : Nat} {n : Node} (h : n.number? bound = some k) : k < bound := by
  unfold number? at h
  split at h
  · obtain ⟨hlt, heq⟩ := Option.ite_none_right_eq_some.mp h
    exact Option.some.inj heq ▸ hlt
  · cases h

theorem lt_of_optionalNumber? {bound k : Nat} {n : Node}
    (h : n.optionalNumber? bound = some (some k)) : k < bound := by
  unfold optionalNumber? at h
  split at h
  · cases h
  · obtain ⟨found, hfound, ⟨⟩⟩ := Option.map_eq_some_iff.mp h
    exact lt_of_number? hfound

end Node

namespace Field

variable {α β : Type} {fields : List (String × β)} {name other : String} {value : β}
variable {read : β → Option α} {default a : α}

@[simp] theorem required_cons_self : required ((name, value) :: fields) name read = read value := by
  rw [required, List.lookup_cons_self, Option.bind_some]

@[simp] theorem required_cons_of_ne (h : name ≠ other) :
    required ((other, value) :: fields) name read = required fields name read := by
  rw [required, List.lookup_cons, beq_eq_false_iff_ne.mpr h, required]

@[simp] theorem orDefault_cons_self :
    orDefault ((name, value) :: fields) name default read = read value := by
  rw [orDefault, List.lookup_cons_self]

@[simp] theorem orDefault_cons_of_ne (h : name ≠ other) :
    orDefault ((other, value) :: fields) name default read =
      orDefault fields name default read := by
  rw [orDefault, List.lookup_cons, beq_eq_false_iff_ne.mpr h, orDefault]

theorem of_required (h : required fields name read = some a) :
    ∃ value, (name, value) ∈ fields ∧ read value = some a := by
  obtain ⟨value, hvalue, hread⟩ := Option.bind_eq_some_iff.mp h
  obtain ⟨before, after, rfl, -⟩ := List.lookup_eq_some_iff.mp hvalue
  exact ⟨value, by simp, hread⟩

theorem of_orDefault (h : orDefault fields name default read = some a) :
    a = default ∨ ∃ value, read value = some a := by
  unfold orDefault at h
  split at h
  · exact .inl (Option.some.inj h).symm
  · next value _ => exact .inr ⟨value, h⟩

end Field

/-- A value is read back from what is written for it exactly if it is valid. Every value that is read
is, so that what has been read and written is written the same the next time. Its fields are in order
if those of the node were that it has been read from. -/
structure NormalForms {α : Type} (Valid : α → Prop) (write : α → Node) (read? : Node → Option α) :
    Prop where
  read_write_iff : ∀ x, read? (write x) = some x ↔ Valid x
  reread : ∀ n x, read? n = some x → read? (write x) = some x
  idempotent : ∀ n m, (read? n).map write = some m → (read? m).map write = some m
  ordered : ∀ n x, n.Ordered → read? n = some x → (write x).Ordered

namespace NormalForms

variable {α : Type} {Valid : α → Prop} {write : α → Node} {read? : Node → Option α}

theorem of_read_write (hvalid : ∀ n x, read? n = some x → Valid x)
    (hwrite : ∀ x, Valid x → read? (write x) = some x)
    (hordered : ∀ n x, n.Ordered → read? n = some x → (write x).Ordered) :
    NormalForms Valid write read? where
  read_write_iff x := ⟨hvalid (write x) x, hwrite x⟩
  reread n x h := hwrite x (hvalid n x h)
  idempotent n m h := by
    obtain ⟨x, hx, rfl⟩ := Option.map_eq_some_iff.mp h
    rw [hwrite x (hvalid n x hx), Option.map_some]
  ordered := hordered

variable (h : NormalForms Valid write read?)
include h

theorem valid {n : Node} {x : α} (hx : read? n = some x) : Valid x :=
  (h.read_write_iff x).mp (h.reread n x hx)

theorem read_write {x : α} (hx : Valid x) : read? (write x) = some x :=
  (h.read_write_iff x).mpr hx

end NormalForms

/-- Values that are written as their names have normal forms if the names are told apart. -/
theorem normalForms_of_names {α : Type} {name : α → String} {ofName? : String → Option α}
    (hname : ∀ x, ofName? (name x) = some x) :
    NormalForms (fun _ => True) (fun x => .text (name x)) fun n => n.choice?.bind ofName? :=
  .of_read_write (fun _ _ _ => trivial) (fun x _ => hname x) fun _ x _ _ => .text (name x)

namespace ShapeId

theorem ofNode?_eq_some_iff {n : Node} {id : ShapeId} :
    ofNode? n = some id ↔ n = id.toNode ∧ id.WellFormed := by
  cases n with
  | text s =>
      rw [ofNode?, toOption_eq_some_iff, parse_eq_ok_iff, toNode, Node.text.injEq, and_comm,
        eq_comm]
  | null | bool | int | float | array | object => simp [ofNode?, toNode]

theorem normalForms : NormalForms WellFormed toNode ofNode? :=
  .of_read_write (fun _ _ h => (ofNode?_eq_some_iff.mp h).2)
    (fun _ h => ofNode?_eq_some_iff.mpr ⟨rfl, h⟩) fun _ id _ _ => .text id.text

end ShapeId

theorem ShapeType.ofName?_name (type : ShapeType) : ofName? type.name = some type := by
  cases type with
  | simple type => cases type <;> decide
  | aggregate type => cases type <;> decide
  | member | service | resource | operation => decide

theorem ShapeType.normalForms : NormalForms (fun _ => True) toNode ofNode? :=
  normalForms_of_names ofName?_name

theorem RelationshipType.ofTitle?_title (type : RelationshipType) :
    ofTitle? type.title = some type := by
  cases type <;> decide

theorem RelationshipType.normalForms : NormalForms (fun _ => True) toNode ofNode? :=
  normalForms_of_names ofTitle?_title

theorem ConflictPolicy.ofName?_name (policy : ConflictPolicy) :
    ofName? policy.name = some policy := by
  cases policy <;> decide

theorem ConflictPolicy.normalForms : NormalForms (fun _ => True) toNode ofNode? :=
  normalForms_of_names ofName?_name

namespace Relationship

def WellFormed (r : Relationship) : Prop :=
  r.source.WellFormed ∧ r.neighbor.WellFormed

theorem wellFormed_of_ofNode? {n : Node} {r : Relationship} (h : ofNode? n = some r) :
    r.WellFormed := by
  simp only [ofNode?, Option.bind_eq_bind, Option.pure_def, Option.bind_eq_some_iff] at h
  obtain ⟨fields, -, source, hsource, type, -, neighbor, hneighbor, ⟨⟩⟩ := h
  obtain ⟨_, -, hsource⟩ := Field.of_required hsource
  obtain ⟨_, -, hneighbor⟩ := Field.of_required hneighbor
  exact ⟨ShapeId.normalForms.valid hsource, ShapeId.normalForms.valid hneighbor⟩

theorem ofNode?_toNode {r : Relationship} (h : r.WellFormed) : ofNode? r.toNode = some r := by
  have hsource := ShapeId.normalForms.read_write h.1
  have hneighbor := ShapeId.normalForms.read_write h.2
  have htype := RelationshipType.normalForms.read_write (x := r.type) trivial
  simp [ofNode?, toNode, Node.record?, hsource, hneighbor, htype]

theorem ordered_toNode (r : Relationship) : r.toNode.Ordered := by
  have hnames : ["kind", "neighbor", "source"].Pairwise fun a b => compare a b = .lt := by decide
  refine .object hnames ?_
  simp only [List.forall_mem_cons]
  exact ⟨.text _, .text _, .text _, by simp⟩

theorem normalForms : NormalForms WellFormed toNode ofNode? :=
  .of_read_write (fun _ _ => wellFormed_of_ofNode?) (fun _ => ofNode?_toNode)
    fun _ r _ _ => r.ordered_toNode

end Relationship

namespace Trait

def WellFormed (t : Trait) : Prop :=
  t.id.WellFormed

theorem of_ofNode? {n : Node} {t : Trait} (h : ofNode? n = some t) :
    t.WellFormed ∧ (n.Ordered → t.value.Ordered) := by
  simp only [ofNode?, Option.bind_eq_bind, Option.pure_def, Option.bind_eq_some_iff] at h
  obtain ⟨fields, hfields, id, hid, value, hvalue, ⟨⟩⟩ := h
  obtain ⟨_, -, hid⟩ := Field.of_required hid
  obtain ⟨_, hmem, ⟨⟩⟩ := Field.of_required hvalue
  exact ⟨ShapeId.normalForms.valid hid, fun hn => hn.of_record? hfields _ hmem⟩

theorem ofNode?_toNode {t : Trait} (h : t.WellFormed) : ofNode? t.toNode = some t := by
  have hid := ShapeId.normalForms.read_write h
  simp [ofNode?, toNode, Node.record?, hid]

theorem ordered_toNode {t : Trait} (h : t.value.Ordered) : t.toNode.Ordered := by
  have hnames : ["id", "value"].Pairwise fun a b => compare a b = .lt := by decide
  refine .object hnames ?_
  simp only [List.forall_mem_cons]
  exact ⟨.text _, h, by simp⟩

theorem normalForms : NormalForms WellFormed toNode ofNode? :=
  .of_read_write (fun _ _ h => (of_ofNode? h).1) (fun _ => ofNode?_toNode)
    fun _ _ hn h => ordered_toNode ((of_ofNode? h).2 hn)

end Trait

namespace Traits

/-- All ids are well-formed, those that traits stand under and those of the traits themselves. -/
def WellFormed (traits : Traits) : Prop :=
  ∀ entry ∈ traits.byId.entries, entry.1.WellFormed ∧ entry.2.WellFormed

theorem of_fields? {n : Node} {fields : List (String × Node)} (h : fields? n = some fields)
    (hn : n.Ordered) : ∀ field ∈ fields, field.2.Ordered := by
  simp only [fields?, Option.bind_eq_bind, Option.bind_eq_some_iff] at h
  obtain ⟨record, hrecord, h⟩ := h
  obtain ⟨value, hmem, hvalue⟩ := Field.of_required h
  split at hvalue
  · cases hvalue
    have hobject := hn.of_record? hrecord _ hmem
    cases hobject with
    | object _ hvalues => exact hvalues
  · cases hvalue

theorem heldBy_of_ofNode? {n : Node} {traits : Traits} (h : ofNode? n = some traits) :
    ∃ fields, fields? n = some fields ∧ ∀ entry ∈ traits.byId.entries,
      ∃ field ∈ fields, HeldBy field entry.1 entry.2 := by
  obtain ⟨fields, entries, hfields, hentries, rfl⟩ := ofNode?_eq_some_iff.mp h
  refine ⟨fields, hfields, ?_⟩
  intro entry hentry
  have hmem : some entry ∈ fields.map ofField? := by
    rw [hentries]
    exact List.mem_map_of_mem (Sorted.mem_of_mem_ofList hentry)
  obtain ⟨field, hfield, hread⟩ := List.mem_map.mp hmem
  exact ⟨field, hfield, ofField?_eq_some_iff.mp hread⟩

theorem of_ofNode? {n : Node} {traits : Traits} (h : ofNode? n = some traits) :
    traits.WellFormed ∧
      (n.Ordered → ∀ entry ∈ traits.byId.entries, entry.2.value.Ordered) := by
  obtain ⟨fields, hfields, hheld⟩ := heldBy_of_ofNode? h
  constructor
  · intro entry hentry
    obtain ⟨field, -, hfield⟩ := hheld entry hentry
    exact ⟨(ShapeId.parse_eq_ok_iff.mp hfield.id).1, Trait.normalForms.valid hfield.trait⟩
  · intro hn entry hentry
    obtain ⟨field, hmem, hfield⟩ := hheld entry hentry
    exact (Trait.of_ofNode? hfield.trait).2 (of_fields? hfields hn field hmem)

theorem ofNode?_toNode {traits : Traits} (h : traits.WellFormed) :
    ofNode? traits.toNode = some traits := by
  have hread : (traits.byId.entries.map fun entry => (entry.1.text, entry.2.toNode)).map ofField? =
      traits.byId.entries.map some := by
    rw [List.map_map]
    refine List.map_congr_left ?_
    intro entry hentry
    obtain ⟨hid, htrait⟩ := h entry hentry
    exact ofField?_eq_some_iff.mpr ⟨ShapeId.parse_text hid, Trait.ofNode?_toNode htrait⟩
  exact ofNode?_eq_some_iff.mpr ⟨_, _, rfl, hread, ext (Sorted.ofList_entries _)⟩

theorem ordered_toNode {traits : Traits} (h : traits.WellFormed)
    (hvalues : ∀ entry ∈ traits.byId.entries, entry.2.value.Ordered) : traits.toNode.Ordered := by
  have hnames : ["traits"].Pairwise fun a b => compare a b = .lt := by decide
  refine .object hnames (List.forall_mem_singleton.mpr (.object ?_ ?_))
  · rw [List.map_map, List.pairwise_map]
    refine traits.byId.ordered.imp_of_mem ?_
    intro a b ha hb hlt
    exact (ShapeId.compare_text (h a ha).1 (h b hb).1).trans hlt
  · refine List.forall_mem_map.mpr ?_
    intro entry hentry
    exact Trait.ordered_toNode (hvalues entry hentry)

theorem normalForms : NormalForms WellFormed toNode ofNode? :=
  .of_read_write (fun _ _ h => (of_ofNode? h).1) (fun _ => ofNode?_toNode)
    fun _ _ hn h => ordered_toNode (of_ofNode? h).1 ((of_ofNode? h).2 hn)

end Traits

namespace ModelConfig

theorem ofNode?_toNode (config : ModelConfig) : ofNode? config.toNode = some config := by
  have hconflicts := ConflictPolicy.normalForms.read_write (x := config.conflicts) trivial
  simp [ofNode?, toNode, Node.record?, Node.bool?, hconflicts]

theorem ordered_toNode (config : ModelConfig) : config.toNode.Ordered := by
  have hnames : ["include_prelude", "mixin_member_conflicts", "require_trait_definitions"].Pairwise
      fun a b => compare a b = .lt := by decide
  refine .object hnames ?_
  simp only [List.forall_mem_cons]
  exact ⟨.bool _, .text _, .bool _, by simp⟩

theorem normalForms : NormalForms (fun _ => True) toNode ofNode? :=
  .of_read_write (fun _ _ _ => trivial) (fun config _ => config.ofNode?_toNode)
    fun _ config _ _ => config.ordered_toNode

end ModelConfig

namespace SelectorConfig

def Representable (config : SelectorConfig) : Prop :=
  ∀ limit, config.resultLimit = some limit → limit < limitBound

theorem representable_of_ofNode? {n : Node} {config : SelectorConfig}
    (h : ofNode? n = some config) : config.Representable := by
  obtain ⟨fields, -, h⟩ := Option.bind_eq_some_iff.mp h
  obtain ⟨optimize, -, h⟩ := Option.bind_eq_some_iff.mp h
  obtain ⟨resultLimit, hlimit, h⟩ := Option.bind_eq_some_iff.mp h
  obtain rfl := Option.some.inj h
  rintro limit rfl
  rcases Field.of_orDefault hlimit with hdefault | ⟨value, hvalue⟩
  · cases hdefault
  · exact Node.lt_of_optionalNumber? hvalue

theorem ofNode?_toNode {config : SelectorConfig} (h : config.Representable) :
    ofNode? config.toNode = some config := by
  obtain ⟨optimize, resultLimit⟩ := config
  cases resultLimit with
  | none =>
      simp [ofNode?, toNode, Node.record?, Node.bool?, Node.optionalNumber?]
  | some limit =>
      have hlimit : Node.number? limitBound (.int limit) = some limit := if_pos (h limit rfl)
      simp [ofNode?, toNode, Node.record?, Node.bool?, Node.optionalNumber?, hlimit]

theorem ordered_toNode (config : SelectorConfig) : config.toNode.Ordered := by
  have hnames : ["optimize", "result_limit"].Pairwise fun a b => compare a b = .lt := by decide
  refine .object hnames ?_
  simp only [List.forall_mem_cons]
  refine ⟨.bool _, ?_, by simp⟩
  split
  · exact .null
  · exact .int _

theorem normalForms : NormalForms Representable toNode ofNode? :=
  .of_read_write (fun _ _ => representable_of_ofNode?) (fun _ => ofNode?_toNode)
    fun _ config _ _ => config.ordered_toNode

end SelectorConfig

namespace EngineConfig

def Representable (config : EngineConfig) : Prop :=
  config.selector.Representable

theorem representable_of_ofNode? {n : Node} {config : EngineConfig} (h : ofNode? n = some config) :
    config.Representable := by
  simp only [ofNode?, Option.bind_eq_bind, Option.pure_def, Option.bind_eq_some_iff] at h
  obtain ⟨fields, -, model, -, selector, hselector, ⟨⟩⟩ := h
  rcases Field.of_orDefault hselector with rfl | ⟨value, hvalue⟩
  · rintro limit ⟨⟩
  · exact SelectorConfig.normalForms.valid hvalue

theorem ofNode?_toNode {config : EngineConfig} (h : config.Representable) :
    ofNode? config.toNode = some config := by
  have hmodel := config.model.ofNode?_toNode
  have hselector := SelectorConfig.ofNode?_toNode h
  simp [ofNode?, toNode, Node.record?, hmodel, hselector]

theorem ordered_toNode (config : EngineConfig) : config.toNode.Ordered := by
  have hnames : ["model", "selector"].Pairwise fun a b => compare a b = .lt := by decide
  refine .object hnames ?_
  simp only [List.forall_mem_cons]
  exact ⟨config.model.ordered_toNode, config.selector.ordered_toNode, by simp⟩

theorem normalForms : NormalForms Representable toNode ofNode? :=
  .of_read_write (fun _ _ => representable_of_ofNode?) (fun _ => ofNode?_toNode)
    fun _ config _ _ => config.ordered_toNode

end EngineConfig

/-- What is written for a value of any of these types is its normal form. Whatever node the value has
been read from, it is read again from the one that is written for it, and written the same again. -/
theorem written_forms_normal :
    NormalForms ShapeId.WellFormed ShapeId.toNode ShapeId.ofNode? ∧
    NormalForms (fun _ => True) ShapeType.toNode ShapeType.ofNode? ∧
    NormalForms (fun _ => True) RelationshipType.toNode RelationshipType.ofNode? ∧
    NormalForms Relationship.WellFormed Relationship.toNode Relationship.ofNode? ∧
    NormalForms Trait.WellFormed Trait.toNode Trait.ofNode? ∧
    NormalForms Traits.WellFormed Traits.toNode Traits.ofNode? ∧
    NormalForms (fun _ => True) ModelConfig.toNode ModelConfig.ofNode? ∧
    NormalForms SelectorConfig.Representable SelectorConfig.toNode SelectorConfig.ofNode? ∧
    NormalForms EngineConfig.Representable EngineConfig.toNode EngineConfig.ofNode? :=
  ⟨ShapeId.normalForms, ShapeType.normalForms, RelationshipType.normalForms,
    Relationship.normalForms, Trait.normalForms, Traits.normalForms, ModelConfig.normalForms,
    SelectorConfig.normalForms, EngineConfig.normalForms⟩

def positional : Node :=
  .array [.array [.object [("first_wins", .null)]],
    .object [("result_limit", .int 3), ("surplus", .null)]]

def positionalConfig : EngineConfig := ⟨⟨.firstWins, true, true⟩, ⟨true, some 3⟩⟩

theorem written_forms_normal_positional :
    EngineConfig.ofNode? positional = some positionalConfig ∧
      positionalConfig.toNode ≠ positional ∧
      EngineConfig.ofNode? positionalConfig.toNode = some positionalConfig ∧
      (EngineConfig.ofNode? positionalConfig.toNode).map EngineConfig.toNode =
        some positionalConfig.toNode ∧
      positional.Ordered ∧ positionalConfig.toNode.Ordered := by
  obtain ⟨-, -, -, -, -, -, -, -, hforms⟩ := written_forms_normal
  have hread : EngineConfig.ofNode? positional = some positionalConfig := by decide +kernel
  have hwritten : (EngineConfig.ofNode? positional).map EngineConfig.toNode =
      some positionalConfig.toNode := by rw [hread, Option.map_some]
  have hordered : positional.Ordered := by
    have hnames : ["result_limit", "surplus"].Pairwise fun a b => compare a b = .lt := by decide
    refine .array (List.forall_mem_cons.mpr ⟨?_, List.forall_mem_singleton.mpr ?_⟩)
    · refine .array (List.forall_mem_singleton.mpr (.object (List.pairwise_singleton _ _) ?_))
      exact List.forall_mem_singleton.mpr .null
    · refine .object hnames (List.forall_mem_cons.mpr ⟨.int 3, ?_⟩)
      exact List.forall_mem_singleton.mpr .null
  exact ⟨hread, by decide, hforms.reread positional positionalConfig hread,
    hforms.idempotent positional _ hwritten, hordered,
    hforms.ordered positional positionalConfig hordered hread⟩

end SchemaQuery
