import ClusterTuning.Proofs.Outcome
import ClusterTuning.Proofs.Yaml.Numerals
import ClusterTuning.Yaml.Record

/-!
# Objects that are read back

A part of an object reads back when reading what is written of it gives the part
again.  Lists and maps read back when what is in them does.  A field that is left
out reads back when the reader's value for its absence is the one that was left out.

* `ReadsBack` — reading undoes writing, for one thing;
* `Record.Holds` — what the fields of a written object are;
* `Node.readsBack_list`, `Node.readsBack_dictionary` — lists and maps;
-/

namespace ClusterTuning.Yaml

/-- What is written of a thing is read as this thing. -/
def ReadsBack {α : Type} (write : α → Value) (read : Node → Except Fault α) (x : α) : Prop :=
  read (write x).toNode = .ok x

variable {α : Type}

namespace Value

theorem itemNodes_eq_map (items : List Value) : itemNodes items = items.map toNode := by
  induction items with
  | nil => rfl
  | cons x xs ih => rw [itemNodes, ih, List.map_cons]

theorem entryNodes_eq_map (entries : List (Value × Value)) :
    entryNodes entries = entries.map fun entry => (entry.1.toNode, entry.2.toNode) := by
  induction entries with
  | nil => rfl
  | cons entry rest ih => rw [entryNodes, ih, List.map_cons]

/-! ## Parts that are there -/

/-- A value that is not taken for an absent part. -/
def IsPresent (v : Value) : Prop :=
  v.toNode.isNull = .ok false

theorem isPresent_string (s : String) : IsPresent (.string s) :=
  rfl

theorem isPresent_sequence (items : List Value) : IsPresent (.sequence items) :=
  rfl

theorem isPresent_mapping (entries : List (Value × Value)) : IsPresent (.mapping entries) :=
  rfl

theorem isPresent_record (fields : List (Option (String × Value))) : IsPresent (.record fields) :=
  rfl

theorem isPresent_bool (b : Bool) : IsPresent (.bool b) := by
  cases b <;> rfl

theorem isPresent_integer (n : Int) : IsPresent (.number (.integer n)) := by
  have hempty : (intText n).isEmpty = false := by
    rw [Bool.eq_false_iff, ne_eq, String.isEmpty_iff]
    intro h
    exact Scalar.intText_ne_nil n (h ▸ rfl)
  show Except.ok ((intText n).isEmpty || Scalar.isNullWord (intText n).toList) = .ok false
  rw [hempty, Scalar.isNullWord_intText]
  rfl

end Value

namespace Node

theorem optional_toNode {read : Node → Except Fault α} {v : Value} {x : α} (hv : v.IsPresent)
    (h : read v.toNode = .ok x) : optional read v.toNode = .ok (some x) := by
  unfold Value.IsPresent at hv
  rw [optional, hv, ok_bind, if_neg Bool.false_ne_true, h]
  rfl

/-! ## Scalars -/

theorem readsBack_text (s : String) : ReadsBack .string text s :=
  rfl

theorem readsBack_flag (b : Bool) : ReadsBack .bool flag b := by
  cases b <;> rfl

theorem integer_toNode {low high n : Int} (hlow : low ≤ n) (hhigh : n ≤ high) :
    integer low high (Value.number (.integer n)).toNode = .ok n := by
  have hrange : (decide (low ≤ n) && decide (n ≤ high)) = true := by simp [hlow, hhigh]
  show orFault .kind ((Scalar.readInteger? (intText n).toList).filter _) = _
  rw [Scalar.readInteger?_intText, Option.filter_some, if_pos hrange]
  rfl

theorem readsBack_int32 (n : Int32) :
    ReadsBack (fun n => .number (.integer n.toInt)) int32 n := by
  have hlow : minInt32 ≤ n.toInt := n.minValue_le_toInt
  have hhigh : n.toInt ≤ maxInt32 := n.toInt_le
  rw [ReadsBack, int32, integer_toNode hlow hhigh]
  exact congrArg Except.ok (Int32.ofInt_toInt n)

/-! ## Lists and maps -/

theorem readsBack_list {write : α → Value} {read : Node → Except Fault α} {xs : List α}
    (h : ∀ x ∈ xs, ReadsBack write read x) :
    ReadsBack (fun xs => .sequence (xs.map write)) (list read) xs := by
  rw [ReadsBack, Value.toNode, Value.itemNodes_eq_map, List.map_map]
  refine mapM_eq_ok_iff.2 ?_
  rw [List.forall₂_map_left_iff, List.forall₂_same]
  exact h

theorem readsBack_texts (xs : List String) :
    ReadsBack (fun xs => .sequence (xs.map .string)) (list text) xs :=
  readsBack_list fun s _ => readsBack_text s

theorem record_toNode (entries : List (String × Value)) :
    record (Value.mapping (entries.map fun e => (.string e.1, e.2))).toNode =
      .ok (entries.map fun e => (e.1, e.2.toNode)) := by
  rw [Value.toNode, Value.entryNodes_eq_map, List.map_map]
  refine mapM_eq_ok_iff.2 ?_
  rw [List.forall₂_map_left_iff, List.forall₂_map_right_iff, List.forall₂_same]
  exact fun e _ => rfl

theorem readsBack_dictionary {write : α → Value} {read : Node → Except Fault α}
    {map : Dictionary α} (h : ∀ e ∈ map.entries, ReadsBack write read e.2) :
    ReadsBack (fun map => .mapping (map.entries.map fun e => (.string e.1, write e.2)))
      (dictionary read) map := by
  have hrecord := record_toNode (map.entries.map fun e => (e.1, write e.2))
  simp only [List.map_map, Function.comp_def] at hrecord
  have hvalues : (map.entries.map fun e => (e.1, (write e.2).toNode)).mapM
      (fun e => do return (e.1, ← read e.2)) = .ok map.entries := by
    refine mapM_eq_ok_iff.2 ?_
    rw [List.forall₂_map_left_iff, List.forall₂_same]
    exact fun e he => bind_eq_ok_iff.2 ⟨e.2, h e he, rfl⟩
  rw [ReadsBack, dictionary, hrecord, ok_bind, hvalues, ok_bind, Dictionary.ofList_entries]
  rfl

end Node

/-! ## Fields -/

namespace Record

/-- A field that is left out where it has no value. -/
def field (name : String) (value : Option Value) : Option (String × Value) :=
  value.map fun v => (name, v)

/-- A value that is left out under a condition. -/
def absentIf (p : Prop) [Decidable p] (v : Value) : Option Value :=
  if p then none else some v

/-- The fields of an object as nodes, without those that are left out. -/
def nodes (fields : List (Option (String × Value))) : List (String × Node) :=
  fields.reduceOption.map fun field => (field.1, field.2.toNode)

theorem record_toNode (fields : List (Option (String × Value))) :
    (Value.record fields).toNode.record = .ok (nodes fields) := by
  have hfields : Value.record fields =
      .mapping (fields.reduceOption.map fun field => (.string field.1, field.2)) := by
    have hreduce : fields.reduceOption = fields.filterMap id := rfl
    rw [Value.record, hreduce, List.map_filterMap]
    rfl
  rw [hfields, Node.record_toNode]
  rfl

/-- Under a name, an object has a value or nothing, and it has the name only once. -/
def Holds (name : String) (value : Option Value) (fields : List (String × Node)) : Prop :=
  fields.filter (·.1 == name) = (value.map fun v => (name, v.toNode)).toList

section
variable {name other : String} {value : Option Value} {fields : List (Option (String × Value))}

theorem nodes_cons :
    nodes (field name value :: fields) =
      (value.map fun v => (name, v.toNode)).toList ++ nodes fields := by
  cases value <;> rfl

@[simp]
theorem holds_nil : Holds name none (nodes []) :=
  rfl

@[simp]
theorem holds_cons_self :
    Holds name value (nodes (field name value :: fields)) ↔ Holds name none (nodes fields) := by
  rw [Holds, Holds, nodes_cons, List.filter_append]
  cases value <;> simp

@[simp]
theorem holds_cons_of_ne {w : Option Value} (h : other ≠ name) :
    Holds name w (nodes (field other value :: fields)) ↔ Holds name w (nodes fields) := by
  rw [Holds, Holds, nodes_cons, List.filter_append]
  cases value <;> simp [h]

end

section
variable {name : String} {value : Option Value} {fields : List (String × Node)}
  {read : Node → Except Fault α}

theorem only?_of_holds (h : Holds name value fields) :
    only? name fields = .ok (value.map Value.toNode) := by
  rw [only?, h]
  cases value <;> rfl

theorem need_eq {v : Value} {x : α} (h : Holds name (some v) fields)
    (hv : read v.toNode = .ok x) : need name read fields = .ok x := by
  rw [need, only?_of_holds h]
  exact hv

/-- What is left out has to be what the reader takes in its absence. -/
theorem getD_eq {default x : α} (h : Holds name value fields)
    (habsent : value = none → default = x) (hv : ∀ v, value = some v → read v.toNode = .ok x) :
    getD name read default fields = .ok x := by
  rw [getD, only?_of_holds h]
  cases value with
  | none => exact congrArg Except.ok (habsent rfl)
  | some v => exact hv v rfl

/-- A field that is always written is read whatever the reader takes in its absence. -/
theorem getD_some_eq {default x : α} {v : Value} (h : Holds name (some v) fields)
    (hv : read v.toNode = .ok x) : getD name read default fields = .ok x :=
  getD_eq h nofun fun _ hw => Option.some.inj hw ▸ hv

/-- What is left out under a condition has to be, under this condition, what the reader takes in its
absence. -/
theorem getD_absentIf {p : Prop} [Decidable p] {v : Value} {default x : α}
    (h : Holds name (absentIf p v) fields) (habsent : p → default = x)
    (hv : ¬ p → read v.toNode = .ok x) : getD name read default fields = .ok x := by
  unfold absentIf at h
  by_cases hp : p
  · rw [if_pos hp] at h
    exact getD_eq h (fun _ => habsent hp) nofun
  · rw [if_neg hp] at h
    exact getD_some_eq h (hv hp)

theorem last?_of_holds (h : Holds name value fields) :
    last? name read fields =
      value.elim (.ok none) fun v => Node.optional read v.toNode := by
  rw [last?, h]
  cases value with
  | none => rfl
  | some v =>
    show [(name, v.toNode)].mapM _ >>= _ = _
    rw [List.mapM_cons, List.mapM_nil]
    show (Node.optional read v.toNode >>= _) >>= _ = Node.optional read v.toNode
    cases Node.optional read v.toNode <;> rfl

section
variable {write : α → Value} {x : Option α}

theorem elim_optional (hx : ∀ a, x = some a → ReadsBack write read a)
    (hpresent : ∀ a, (write a).IsPresent) :
    (x.map write).elim (.ok none) (fun v => Node.optional read v.toNode) = .ok x := by
  cases x with
  | none => rfl
  | some a => exact Node.optional_toNode (hpresent a) (hx a rfl)

/-- An optional part reads back when its value is not taken for an absent one. -/
theorem get?_eq (h : Holds name (x.map write) fields)
    (hx : ∀ a, x = some a → ReadsBack write read a) (hpresent : ∀ a, (write a).IsPresent) :
    get? name read fields = .ok x := by
  have helim := elim_optional hx hpresent
  refine getD_eq h (fun hnone => ?_) fun v hv => ?_
  · exact (Option.map_eq_none_iff.1 hnone).symm
  · rw [hv] at helim
    exact helim

theorem last?_eq (h : Holds name (x.map write) fields)
    (hx : ∀ a, x = some a → ReadsBack write read a) (hpresent : ∀ a, (write a).IsPresent) :
    last? name read fields = .ok x := by
  rw [last?_of_holds h]
  exact elim_optional hx hpresent

end

theorem last?_some_eq {v : Value} {x : α} (h : Holds name (some v) fields) (hpresent : v.IsPresent)
    (hv : read v.toNode = .ok x) : last? name read fields = .ok (some x) := by
  rw [last?_of_holds h]
  exact Node.optional_toNode hpresent hv

end

/-! ## Fields of common kinds -/

section
variable {name : String} {fields : List (String × Node)}

theorem need_text {s : String} (h : Holds name (some (.string s)) fields) :
    need name Node.text fields = .ok s :=
  need_eq h rfl

theorem getD_text {s default : String} (h : Holds name (some (.string s)) fields) :
    getD name Node.text default fields = .ok s :=
  getD_some_eq h rfl

/-- The empty text is left out, and read in the absence of a text. -/
theorem getD_nonempty {s : String} (h : Holds name (absentIf (s.isEmpty = true) (.string s)) fields) :
    getD name Node.text "" fields = .ok s :=
  getD_absentIf h (fun hs => (String.isEmpty_iff.1 hs).symm) fun _ => rfl

theorem getD_flag {b default : Bool} (h : Holds name (some (.bool b)) fields) :
    getD name Node.flag default fields = .ok b :=
  getD_some_eq h (Node.readsBack_flag b)

/-- A flag that is down is left out, and read in the absence of a flag. -/
theorem getD_raised {b : Bool} (h : Holds name (absentIf (¬ b = true) (.bool true)) fields) :
    getD name Node.flag false fields = .ok b := by
  cases b with
  | false => exact getD_absentIf h (fun _ => rfl) fun hb => absurd Bool.false_ne_true hb
  | true => exact getD_absentIf h (fun hb => absurd rfl hb) fun _ => rfl

/-- Zero is left out, and read in the absence of an amount. -/
theorem getD_amount {n : Int32}
    (h : Holds name (absentIf (n = 0) (.number (.integer n.toInt))) fields) :
    getD name Node.int32 0 fields = .ok n :=
  getD_absentIf h Eq.symm fun _ => Node.readsBack_int32 n

/-- The empty list is left out, and read in the absence of a list. -/
theorem getD_list {write : α → Value} {read : Node → Except Fault α} {xs : List α}
    (h : Holds name (absentIf (xs = []) (.sequence (xs.map write))) fields)
    (hx : ∀ x ∈ xs, ReadsBack write read x) : getD name (Node.list read) [] fields = .ok xs :=
  getD_absentIf h Eq.symm fun _ => Node.readsBack_list hx

theorem get?_text {s : Option String} (h : Holds name (s.map .string) fields) :
    get? name Node.text fields = .ok s :=
  get?_eq h (fun s _ => Node.readsBack_text s) Value.isPresent_string

theorem get?_flag {b : Option Bool} (h : Holds name (b.map .bool) fields) :
    get? name Node.flag fields = .ok b :=
  get?_eq h (fun b _ => Node.readsBack_flag b) Value.isPresent_bool

end

end Record

end ClusterTuning.Yaml
