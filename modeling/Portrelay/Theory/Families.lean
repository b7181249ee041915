/-
# Theory.Families -- metric families in the text format

A family is its HELP line, its TYPE line and all samples of its metric, in one group.

* `Grouped.owned` -- in a grouped text each sample is one of the family that the last
  TYPE line before it names.
-/
import Portrelay.Theory.Exposition

namespace Portrelay.Theory.Exposition

set_option autoImplicit false

/-- A sample of this name is one of the metric `name` of type `type`: of a histogram its
buckets, sum and count, of a summary its sum and count, too. -/
def OfMetric (name type sampleName : List Char) : Prop :=
  sampleName = name ∨
    (type = "histogram".toList ∧ sampleName = name ++ "_bucket".toList) ∨
    ((type = "histogram".toList ∨ type = "summary".toList) ∧
      (sampleName = name ++ "_sum".toList ∨ sampleName = name ++ "_count".toList))

instance (name type sampleName : List Char) : Decidable (OfMetric name type sampleName) :=
  inferInstanceAs (Decidable (_ ∨ _ ∨ _))

structure Family where
  name : List Char
  doc : List Char
  type : List Char
  samples : List Sample
  own : ∀ sample ∈ samples, OfMetric name type sample.name

/-- The block of a family: HELP, TYPE and every sample. -/
def Family.lines (family : Family) : List Line :=
  .help family.name family.doc :: .kind family.name family.type :: family.samples.map .sample

/-- The lines are the blocks of families of different names. -/
def Grouped (lines : List Line) : Prop :=
  ∃ families : List Family, (families.map Family.name).Nodup ∧ lines = families.flatMap Family.lines

/-- Each sample belongs to the metric of the last TYPE line, at first `current`. -/
def Owned : Option (List Char × List Char) → List Line → Prop
  | _, [] => True
  | _, .help _ _ :: rest => Owned none rest
  | _, .kind name type :: rest => Owned (some (name, type)) rest
  | current, .sample sample :: rest =>
      (∃ metric ∈ current, OfMetric metric.1 metric.2 sample.name) ∧ Owned current rest

/-- Samples of the current metric before what starts with a HELP line. -/
theorem Owned.samples {metric : List Char × List Char} {samples : List Sample}
    (own : ∀ sample ∈ samples, OfMetric metric.1 metric.2 sample.name) {rest : List Line}
    (later : ∀ current, Owned current rest) : Owned (some metric) (samples.map .sample ++ rest) := by
  induction samples with
  | nil => exact later (some metric)
  | cons sample samples ih =>
      refine ⟨⟨metric, rfl, own sample List.mem_cons_self⟩, ih ?_⟩
      intro other member
      exact own other (List.mem_cons_of_mem sample member)

theorem Grouped.owned {lines : List Line} (grouped : Grouped lines)
    (current : Option (List Char × List Char)) : Owned current lines := by
  obtain ⟨families, -, rfl⟩ := grouped
  induction families generalizing current with
  | nil => cases current <;> trivial
  | cons family families ih =>
      show Owned (some (family.name, family.type)) (family.samples.map .sample ++ _)
      exact Owned.samples family.own ih

/-- Families without samples. -/
theorem grouped_of_metadata {entries : List (List Char × List Char × List Char)}
    (distinct : (entries.map Prod.fst).Nodup) :
    Grouped (entries.flatMap fun (name, help, metricType) =>
      [.help name help, .kind name metricType]) := by
  have none_ : ∀ name type, ∀ sample ∈ ([] : List Sample), OfMetric name type sample.name :=
    fun _ _ _ member => absurd member List.not_mem_nil
  refine ⟨entries.map fun (name, help, metricType) => ⟨name, help, metricType, [], none_ _ _⟩, ?_, ?_⟩
  · rw [List.map_map]
    exact distinct
  · rw [List.flatMap_map]
    rfl

end Portrelay.Theory.Exposition
