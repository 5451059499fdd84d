import ClusterTuning.Experiment.Document
import ClusterTuning.Proofs.Yaml.Records

/-!
# Experiments are read back

The parts of an experiment are written with some of their fields left out.  What
is left out is what the reader takes in its absence, so every part reads back.

* `Record.getD_list`, `Record.getD_amount` — fields that are left out;
* `Experiment.readsBack` — an experiment, if the objects of the cluster in it read back.
-/

namespace ClusterTuning

open Yaml Record

/-! ## Fields that are left out -/

section
variable {α : Type} (name : String)

theorem textField_eq (text : String) : textField name text = field name (some (.string text)) :=
  rfl

theorem optionalField_eq (write : α → Value) (value : Option α) :
    optionalField name write value = field name (value.map write) := by
  cases value <;> rfl

theorem listField_eq (write : α → Value) (items : List α) :
    listField name write items =
      field name (absentIf (items = []) (.sequence (items.map write))) := by
  cases items <;> rfl

theorem amountField_eq (n : Int32) :
    amountField name n = field name (absentIf (n = 0) (.number (.integer n.toInt))) := by
  unfold amountField absentIf
  split <;> rfl

theorem some_field_eq (v : Value) : some (name, v) = field name (some v) :=
  rfl

theorem ite_none_field_eq (p : Prop) [Decidable p] (v : Value) :
    (if p then none else field name (some v)) = field name (absentIf p v) := by
  unfold absentIf
  split <;> rfl

theorem ite_field_none_eq (p : Prop) [Decidable p] (v : Value) :
    (if p then field name (some v) else none) = field name (absentIf (¬ p) v) := by
  unfold absentIf
  split <;> simp_all [field]

end

/-! ## References and selectors -/

theorem Reference.readsBack (r : Reference) : ReadsBack toValue read r := by
  rw [ReadsBack, toValue, read, record_toNode, ok_bind]
  simp only [textField_eq, ite_none_field_eq]
  refine bind_eq_ok_iff.2 ⟨r.apiVersion, need_text (by simp), ?_⟩
  refine bind_eq_ok_iff.2 ⟨r.kind, need_text (by simp), ?_⟩
  refine bind_eq_ok_iff.2 ⟨r.namespace, getD_nonempty (by simp), ?_⟩
  exact bind_eq_ok_iff.2 ⟨r.name, need_text (by simp), rfl⟩

theorem SelectorRequirement.readsBack (r : SelectorRequirement) : ReadsBack toValue read r := by
  rw [ReadsBack, toValue, read, record_toNode, ok_bind]
  simp only [textField_eq, optionalField_eq]
  refine bind_eq_ok_iff.2
    ⟨some r.key, last?_some_eq (by simp) (Value.isPresent_string _) rfl, ?_⟩
  refine bind_eq_ok_iff.2
    ⟨some r.operator, last?_some_eq (by simp) (Value.isPresent_string _) rfl, ?_⟩
  exact bind_eq_ok_iff.2
    ⟨r.values, last?_eq (by simp) (fun vs _ => Node.readsBack_texts vs) fun _ =>
      Value.isPresent_sequence _, rfl⟩

theorem LabelSelector.readsBack (s : LabelSelector) : ReadsBack toValue ofNode s := by
  rw [ReadsBack, toValue, ofNode, record_toNode, ok_bind]
  simp only [optionalField_eq]
  refine bind_eq_ok_iff.2
    ⟨s.matchExpressions, last?_eq (by simp) (fun rs _ => Node.readsBack_list fun r _ =>
      r.readsBack) fun _ => Value.isPresent_sequence _, ?_⟩
  exact bind_eq_ok_iff.2
    ⟨s.matchLabels, last?_eq (by simp) (fun ls _ => Node.readsBack_dictionary fun l _ =>
      Node.readsBack_text l.2) fun _ => Value.isPresent_mapping _, rfl⟩

/-! ## Parameters and metrics -/

theorem IntOrText.readsBack (x : IntOrText) : ReadsBack toValue read x := by
  cases x with
  | text s => rfl
  | int n =>
    have hfits : fitsInt32 n.toInt = true :=
      (fitsInt32_iff _).2 ⟨n.minValue_le_toInt, n.toInt_le⟩
    have h64 : Scalar.fits64 n.toInt = true := by
      obtain ⟨hlow, hhigh⟩ := (fitsInt32_iff _).1 hfits
      simp only [minInt32, maxInt32] at hlow hhigh
      rw [Scalar.fits64_iff, minInt64, maxUInt64]
      omega
    have hvalue : (toValue (int n)).toNode.toValue = .ok (toValue (int n)) := by
      show (Scalar.meaning (intText n.toInt).toList).value _ = _
      rw [Scalar.meaning_intText h64]
      rfl
    rw [ReadsBack, read, hvalue, ok_bind, toValue, ofValue?, if_pos hfits, Int32.ofInt_toInt]
    rfl

theorem IntOrText.isPresent_toValue (x : IntOrText) : x.toValue.IsPresent := by
  cases x with
  | int n => exact Value.isPresent_integer _
  | text s => exact Value.isPresent_string s

theorem Optimization.readsBack (o : Optimization) : ReadsBack toValue read o := by
  rw [ReadsBack, toValue, read, record_toNode, ok_bind]
  simp only [textField_eq]
  refine bind_eq_ok_iff.2 ⟨o.name, need_text (by simp), ?_⟩
  exact bind_eq_ok_iff.2 ⟨o.value, need_text (by simp), rfl⟩

theorem Parameter.readsBack (p : Parameter) : ReadsBack toValue read p := by
  rw [ReadsBack, toValue, read, record_toNode, ok_bind]
  simp only [textField_eq, amountField_eq, optionalField_eq, listField_eq]
  refine bind_eq_ok_iff.2 ⟨p.name, need_text (by simp), ?_⟩
  refine bind_eq_ok_iff.2 ⟨p.min, getD_amount (by simp), ?_⟩
  refine bind_eq_ok_iff.2 ⟨p.max, getD_amount (by simp), ?_⟩
  refine bind_eq_ok_iff.2
    ⟨p.baseline, get?_eq (by simp) (fun x _ => x.readsBack) IntOrText.isPresent_toValue, ?_⟩
  exact bind_eq_ok_iff.2
    ⟨p.values, getD_list (by simp) fun s _ => Node.readsBack_text s, rfl⟩

theorem MetricTarget.readsBack (t : MetricTarget) : ReadsBack toValue read t := by
  rw [ReadsBack, toValue, read, record_toNode, ok_bind]
  simp only [textField_eq, optionalField_eq]
  refine bind_eq_ok_iff.2 ⟨t.apiVersion, need_text (by simp), ?_⟩
  refine bind_eq_ok_iff.2 ⟨t.kind, need_text (by simp), ?_⟩
  exact bind_eq_ok_iff.2
    ⟨t.labelSelector, get?_eq (by simp) (fun s _ => s.readsBack) fun _ =>
      Value.isPresent_record _, rfl⟩

theorem MetricKind.readsBack (k : MetricKind) :
    ReadsBack (fun k => .string k.name) (Node.alternative ofName?) k := by
  cases k <;> rfl

theorem Metric.readsBack (m : Metric) : ReadsBack toValue read m := by
  rw [ReadsBack, toValue, read, record_toNode, ok_bind]
  simp only [textField_eq, optionalField_eq, some_field_eq, ite_field_none_eq]
  refine bind_eq_ok_iff.2 ⟨m.name, need_text (by simp), ?_⟩
  refine bind_eq_ok_iff.2 ⟨m.minimize, getD_raised (by simp), ?_⟩
  refine bind_eq_ok_iff.2 ⟨m.optimize, get?_flag (by simp), ?_⟩
  refine bind_eq_ok_iff.2
    ⟨m.kind, get?_eq (by simp) (fun k _ => k.readsBack) fun _ => Value.isPresent_string _, ?_⟩
  refine bind_eq_ok_iff.2 ⟨m.query, need_text (by simp), ?_⟩
  refine bind_eq_ok_iff.2 ⟨m.url, get?_text (by simp), ?_⟩
  exact bind_eq_ok_iff.2
    ⟨m.target, get?_eq (by simp) (fun t _ => t.readsBack) fun _ => Value.isPresent_record _, rfl⟩

/-! ## Patches and trials -/

theorem PatchStrategy.readsBack (s : PatchStrategy) :
    ReadsBack (fun s => .string s.name) (Node.alternative ofName?) s := by
  cases s <;> rfl

theorem PatchTemplate.readsBack (p : PatchTemplate) : ReadsBack toValue read p := by
  rw [ReadsBack, toValue, read, record_toNode, ok_bind]
  simp only [textField_eq, optionalField_eq]
  refine bind_eq_ok_iff.2
    ⟨p.strategy, get?_eq (by simp) (fun s _ => s.readsBack) fun _ => Value.isPresent_string _, ?_⟩
  refine bind_eq_ok_iff.2 ⟨p.patch, need_text (by simp), ?_⟩
  exact bind_eq_ok_iff.2
    ⟨p.target, get?_eq (by simp) (fun r _ => r.readsBack) fun _ => Value.isPresent_record _, rfl⟩

variable {cluster : ClusterReader}

theorem TrialSpec.readsBack {t : TrialSpec}
    (h : ∀ job, t.jobTemplate = some job → ReadsBack JobTemplate.toValue cluster.jobTemplate job) :
    ReadsBack toValue (read cluster) t := by
  rw [ReadsBack, toValue, read, record_toNode, ok_bind]
  simp only [amountField_eq, optionalField_eq]
  refine bind_eq_ok_iff.2
    ⟨t.jobTemplate, get?_eq (by simp) h fun _ => Value.isPresent_record _, ?_⟩
  refine bind_eq_ok_iff.2 ⟨t.initialDelaySeconds, getD_amount (by simp), ?_⟩
  exact bind_eq_ok_iff.2 ⟨t.approximateRuntime, get?_text (by simp), rfl⟩

theorem TrialSpec.eq_of_isDefault {t : TrialSpec} (h : t.isDefault = true) : t = {} := by
  obtain ⟨job, delay, runtime⟩ := t
  simp_all [isDefault]

/-- The template around the trials says nothing of its own. -/
theorem TrialSpec.readTemplate_toNode {t : TrialSpec} (h : ReadsBack toValue (read cluster) t) :
    readTemplate cluster (Value.record [some ("spec", t.toValue)]).toNode = .ok t := by
  rw [readTemplate, record_toNode, ok_bind, some_field_eq]
  exact getD_some_eq (by simp) h

/-! ## Experiments -/

namespace Experiment

/-- The reader of cluster objects reads back the metadata of an experiment and the template of its
job. -/
structure ClusterPartsReadBack (cluster : ClusterReader) (e : Experiment) : Prop where
  metadata : ReadsBack ObjectMeta.toValue cluster.metadata e.metadata
  job : ∀ job, e.trial.jobTemplate = some job →
    ReadsBack JobTemplate.toValue cluster.jobTemplate job

/-- The specification of an experiment is read back into any other one. -/
theorem readSpec_toNode {e : Experiment} (h : e.ClusterPartsReadBack cluster)
    (start : Experiment) :
    readSpec cluster start e.specValue.toNode = .ok
      { start with
        optimization := e.optimization
        parameters := e.parameters
        metrics := e.metrics
        patches := e.patches
        trial := e.trial } := by
  rw [readSpec, specValue, record_toNode, ok_bind]
  simp only [listField_eq, some_field_eq, ite_none_field_eq]
  refine bind_eq_ok_iff.2 ⟨e.optimization, getD_list (by simp) fun o _ => o.readsBack, ?_⟩
  refine bind_eq_ok_iff.2 ⟨e.parameters, getD_list (by simp) fun p _ => p.readsBack, ?_⟩
  refine bind_eq_ok_iff.2 ⟨e.metrics, getD_list (by simp) fun m _ => m.readsBack, ?_⟩
  refine bind_eq_ok_iff.2 ⟨e.patches, getD_list (by simp) fun p _ => p.readsBack, ?_⟩
  refine bind_eq_ok_iff.2 ⟨e.trial, getD_absentIf (p := e.trial.isDefault = true)
    (v := .record [field "spec" (some e.trial.toValue)]) (by simp) (fun hd => ?_) fun _ => ?_, rfl⟩
  · exact (TrialSpec.eq_of_isDefault hd).symm
  · exact TrialSpec.readTemplate_toNode (TrialSpec.readsBack h.job)

theorem readsBack {e : Experiment} (h : e.ClusterPartsReadBack cluster) :
    ReadsBack toValue (ofNode cluster) e := by
  rw [ReadsBack, toValue, ofNode, record_toNode, ok_bind]
  simp only [textField_eq, some_field_eq]
  refine bind_eq_ok_iff.2 ⟨e.apiVersion, need_text (by simp), ?_⟩
  refine bind_eq_ok_iff.2 ⟨e.kind, need_text (by simp), ?_⟩
  refine bind_eq_ok_iff.2 ⟨e.metadata, getD_some_eq (by simp) h.metadata, ?_⟩
  exact getD_some_eq (by simp) (readSpec_toNode h _)

end Experiment

end ClusterTuning
