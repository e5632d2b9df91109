import ApiReference.Text.Basic

/-!
# Parsed queries

What is learnt from a query: the framework it is about, the concept asked for, the version and the
words that describe the aim. Confidences are kept exactly, in hundredths.
-/

namespace ApiReference.Query

/-- The step of detection that found a framework. -/
inductive Step where
  /-- A token is a package name. -/
  | packageName
  /-- A token is a framework key. -/
  | frameworkKey
  /-- The query contains another name of the framework. -/
  | aliasName
  /-- A token is an identifier that only this framework has. -/
  | apiPattern
  /-- A token is nearly a framework key. -/
  | fuzzy
  /-- A token could be a package that the catalog does not know. -/
  | dynamic
  deriving DecidableEq, Repr

/-- How far the finding of a step is trusted, in hundredths. -/
def Step.confidence : Step → Nat
  | packageName => 100
  | frameworkKey => 100
  | aliasName => 90
  | apiPattern => 80
  | fuzzy => 60
  | dynamic => 40

/-- A framework that a query is about and the package that describes it. -/
structure Target where
  framework : Text
  package : Text
  step : Step
  deriving DecidableEq, Repr

/-- A target and the indices of the tokens that named it. -/
structure Detection where
  target : Target
  consumed : List Nat
  deriving DecidableEq, Repr

/-- The structured form of a query. -/
structure Parsed where
  query : Text
  target : Option Target
  /-- The concept asked for, in lower case. -/
  concept : Text
  version : Option Text
  contextWords : List Text
  deriving DecidableEq, Repr

namespace Parsed

def framework (p : Parsed) : Option Text := p.target.map Target.framework

def package (p : Parsed) : Option Text := p.target.map Target.package

/-- Confidence of the detection step alone, in hundredths. -/
def frameworkConfidence (p : Parsed) : Nat := (p.target.map (·.step.confidence)).getD 0

/-- Two fifths for the framework, two fifths for a concept of twenty characters or more and one
fifth for three context words or more, to the nearest hundredth. -/
def confidence (p : Parsed) : Nat :=
  4 * p.frameworkConfidence / 10 + 2 * min p.concept.length 20 +
    (match p.contextWords.length with
      | 0 => 0
      | 1 => 7
      | 2 => 13
      | _ => 20)

end Parsed

/-- A number of hundredths with as few decimals as it needs, at least one. -/
def hundredthsText (n : Nat) : Text :=
  let whole := Text.ofNat (n / 100)
  let tenth := n / 10 % 10
  let last := n % 10
  whole ++ '.' :: Text.ofNat tenth ++ (if last = 0 then [] else Text.ofNat last)

end ApiReference.Query
