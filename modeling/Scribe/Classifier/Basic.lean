import Scribe.Text.CodePoints

/-!
# Classifiers

A classifier gives a text one of the labels of a model, with a score. It may refuse, and then
says why.
-/
namespace Scribe

structure Verdict (τ : Type := String) where
  label : τ
  score : Float
deriving DecidableEq

def Verdict.plain? (v : Verdict CodePoints) : Option Verdict :=
  v.label.text?.map fun label => ⟨label, v.score⟩

inductive ClassifierError where
  | noPath
  | notFound (path : String)
  | unreadable (path reason : String)
  | badFormat (source reason : String)
  | noLabels (source : String)
  | nonNumericBias (source : String)
  | biasSize (source : String) (entries labels : Nat)
  | rowSize (source : String) (token : CodePoints) (labels : Nat)
  | nonNumericWeights (source : String)
  | notFinite (source : String)
  | overflowed
  | stated (message : String)
deriving DecidableEq, Repr

def ClassifierError.message : ClassifierError → String
  | noPath => "no model path given"
  | notFound path => s!"model not found: {path}"
  | unreadable path reason => s!"could not read model {path}: {reason}"
  | badFormat source reason => s!"bad model format in {source}: {reason}"
  | noLabels source => s!"model {source} has no labels"
  | nonNumericBias source => s!"model {source}: non-numeric bias"
  | biasSize source entries labels =>
    s!"model {source}: bias has {entries} entries for {labels} labels"
  | rowSize source token labels =>
    let name := token.quoted
    s!"model {source}: weights for {name} do not match {labels} labels"
  | nonNumericWeights source => s!"model {source}: non-numeric weights"
  | notFinite source => s!"model {source}: weights and bias must be finite numbers"
  | overflowed => "model scores overflowed"
  | stated message => message

end Scribe
