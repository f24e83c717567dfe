import ConvoScore.Library.Decimal
import ConvoScore.Schema.Conversation

namespace ConvoScore
open Library

/-- A price is in USD for one million tokens. -/
structure ModelPrice where
  inputPerMillion : Rat
  outputPerMillion : Rat
  deriving DecidableEq

/-- This table is `PRICES`, in its order. -/
def prices : List (Text × ModelPrice) :=
  [("gpt-4.1-mini".toList, ⟨40 / 100, 160 / 100⟩),
    ("gpt-4.1-nano".toList, ⟨10 / 100, 40 / 100⟩),
    ("gpt-4o-mini".toList, ⟨15 / 100, 60 / 100⟩),
    ("gpt-5-mini".toList, ⟨25 / 100, 200 / 100⟩),
    ("gpt-5-nano".toList, ⟨5 / 100, 40 / 100⟩)]

/-- The first entry whose name starts the name of the model gives the price
when the table does not list the model itself. -/
def priceFor (model : Text) : Option ModelPrice :=
  match prices.lookup model with
  | some price => some price
  | none => (prices.find? fun entry => entry.1.isPrefixOf model).map (·.2)

/-- The default context of `decimal` keeps this number of digits. -/
def decimalDigits : Nat := 28

/-- The cost column keeps this number of decimals. -/
def costDecimals : Nat := 8

inductive CostError
  | invalidOperation
  deriving DecidableEq, Repr

/-- Each decimal operation rounds to the context before the next one. -/
def tokenCost (price : ModelPrice) (promptTokens completionTokens : Int) : Rat :=
  Decimal.roundTo decimalDigits
    (Decimal.roundTo decimalDigits
      (Decimal.roundTo decimalDigits (promptTokens * price.inputPerMillion) +
        Decimal.roundTo decimalDigits (completionTokens * price.outputPerMillion)) / 1000000)

def estimateCost (model : Text) (promptTokens completionTokens : Option Int) :
    Except CostError (Option Rat) :=
  match priceFor model, promptTokens, completionTokens with
  | some price, some prompt, some completion =>
      match Decimal.quantize decimalDigits costDecimals (tokenCost price prompt completion) with
      | some estimate => .ok (some estimate)
      | none => .error .invalidOperation
  | _, _, _ => .ok none

/-- A dated snapshot adds `-YYYY-MM-DD` to the name of its model. -/
def isSnapshot : Text → Bool
  | ['-', y1, y2, y3, y4, '-', m1, m2, '-', d1, d2] =>
      [y1, y2, y3, y4, m1, m2, d1, d2].all Char.isDigit
  | _ => false

/-- A model has the price of an entry by its own name or as a dated snapshot. -/
def Names (entry : Text) (model : Text) : Prop :=
  ∃ suffix, model = entry ++ suffix ∧ (suffix = [] ∨ isSnapshot suffix = true)

/-- The model has the price of the one entry that names it, or no price and no estimate. -/
structure PricedByName (model : Text) : Prop where
  resolved : ∀ entry ∈ prices, priceFor model = some entry.2 ↔ Names entry.1 model
  unique : ∀ entry ∈ prices, ∀ other ∈ prices, Names entry.1 model → Names other.1 model →
    entry = other
  unknown : (∀ entry ∈ prices, ¬ Names entry.1 model) → priceFor model = none ∧
    ∀ promptTokens completionTokens, estimateCost model promptTokens completionTokens = .ok none

variable {model : Text}

/-- No name of the table starts another one. -/
theorem prices_prefixFree : ∀ entry ∈ prices, ∀ other ∈ prices,
    entry.1.isPrefixOf other.1 = true → entry = other := by
  decide +kernel

/-- No two models of the table have one price. -/
theorem prices_distinct : ∀ entry ∈ prices, ∀ other ∈ prices,
    entry.2 = other.2 → entry = other := by
  decide +kernel

/-- At most one entry starts the name of a model. -/
theorem prices_unique {entry other : Text × ModelPrice} (member : entry ∈ prices)
    (alsoMember : other ∈ prices) (starts : entry.1 <+: model) (alsoStarts : other.1 <+: model) :
    entry = other := by
  rcases List.prefix_or_prefix_of_prefix starts alsoStarts with first | first
  · exact prices_prefixFree entry member other alsoMember (List.isPrefixOf_iff_prefix.mpr first)
  · exact (prices_prefixFree other alsoMember entry member
      (List.isPrefixOf_iff_prefix.mpr first)).symm

/-- A model has a price exactly when the name of an entry starts its name. -/
theorem priceFor_eq_some {price : ModelPrice} :
    priceFor model = some price ↔ ∃ entry ∈ prices, entry.1 <+: model ∧ entry.2 = price := by
  unfold priceFor
  split
  · rename_i listed found
    obtain ⟨before, after, split, _⟩ := List.lookup_eq_some_iff.mp found
    have member : (model, listed) ∈ prices := split ▸ by simp
    constructor
    · intro same
      cases same
      exact ⟨_, member, List.prefix_rfl, rfl⟩
    · rintro ⟨entry, alsoMember, starts, rfl⟩
      rw [prices_unique alsoMember member starts List.prefix_rfl]
  · constructor
    · intro found
      obtain ⟨entry, first, same⟩ := Option.map_eq_some_iff.mp found
      have starts : entry.1.isPrefixOf model = true := by simpa using List.find?_some first
      exact ⟨entry, List.mem_of_find?_eq_some first, List.isPrefixOf_iff_prefix.mp starts, same⟩
    · rintro ⟨entry, member, starts, rfl⟩
      cases first : prices.find? fun entry => entry.1.isPrefixOf model with
      | none =>
          have fails := List.find?_eq_none.mp first entry member
          exact absurd (List.isPrefixOf_iff_prefix.mpr starts) fails
      | some other =>
          have alsoStarts : other.1.isPrefixOf model = true := by
            simpa using List.find?_some first
          rw [prices_unique member (List.mem_of_find?_eq_some first) starts
            (List.isPrefixOf_iff_prefix.mp alsoStarts)]
          rfl

theorem Names.starts {entry : Text} (named : Names entry model) : entry <+: model := by
  obtain ⟨suffix, rfl, _⟩ := named
  exact List.prefix_append _ _

/-- A model without a price has no estimate, whatever its tokens. -/
theorem estimateCost_unpriced (unpriced : priceFor model = none)
    (promptTokens completionTokens : Option Int) :
    estimateCost model promptTokens completionTokens = .ok none := by
  unfold estimateCost
  split
  · rename_i found
    rw [unpriced] at found
    cases found
  · rfl

/-- A cost that can be quantised is the estimate of a model with a price. -/
theorem estimateCost_of_quantize {price : ModelPrice} {promptTokens completionTokens : Int}
    {estimate : Rat} (priced : priceFor model = some price)
    (quantized : Decimal.quantize decimalDigits costDecimals
      (tokenCost price promptTokens completionTokens) = some estimate) :
    estimateCost model (some promptTokens) (some completionTokens) = .ok (some estimate) := by
  unfold estimateCost
  split
  · rename_i found prompt completion
    rw [priced] at found
    cases found
    cases prompt
    cases completion
    rw [quantized]
  · rename_i missing
    exact absurd rfl (missing _ _ _ priced rfl)

/-- A model that is priced by its name continues a listed name with a date only. -/
theorem PricedByName.dated {model : Text} (priced : PricedByName model)
    {entry : Text × ModelPrice} (member : entry ∈ prices) {suffix : Text}
    (same : model = entry.1 ++ suffix) (longer : suffix ≠ []) : isSnapshot suffix = true := by
  have found : priceFor model = some entry.2 :=
    priceFor_eq_some.mpr ⟨entry, member, same ▸ List.prefix_append _ _, rfl⟩
  obtain ⟨other, alsoSame, ended | dated⟩ := (priced.resolved entry member).mp found
  · rw [same, ended, List.append_cancel_left_eq] at alsoSame
    exact absurd alsoSame longer
  · rw [same, List.append_cancel_left_eq] at alsoSame
    exact alsoSame ▸ dated

/-- Every model is priced by its name exactly when no listed name is followed
by anything but a date. -/
theorem pricedByName_iff (model : Text) : PricedByName model ↔
    ∀ entry ∈ prices, ∀ suffix, model = entry.1 ++ suffix → suffix ≠ [] →
      isSnapshot suffix = true := by
  constructor
  · exact fun priced entry member suffix same longer => priced.dated member same longer
  · intro dated
    have named : ∀ entry ∈ prices, entry.1 <+: model → Names entry.1 model := by
      rintro entry member ⟨suffix, same⟩
      by_cases ended : suffix = []
      · exact ⟨suffix, same.symm, .inl ended⟩
      · exact ⟨suffix, same.symm, .inr (dated entry member suffix same.symm ended)⟩
    refine ⟨?_, ?_, ?_⟩
    · intro entry member
      rw [priceFor_eq_some]
      constructor
      · rintro ⟨other, alsoMember, starts, same⟩
        rw [← prices_distinct other alsoMember entry member same]
        exact named other alsoMember starts
      · intro names
        exact ⟨entry, member, names.starts, rfl⟩
    · intro entry member other alsoMember names alsoNames
      exact prices_unique member alsoMember names.starts alsoNames.starts
    · intro unnamed
      have unpriced : priceFor model = none := by
        rw [Option.eq_none_iff_forall_ne_some]
        intro price found
        obtain ⟨entry, member, starts, _⟩ := priceFor_eq_some.mp found
        exact unnamed entry member (named entry member starts)
      exact ⟨unpriced, estimateCost_unpriced unpriced⟩

/-- A preview model with its own price gets the price of the model that starts its name. -/
theorem previewModel_priced : ¬ PricedByName "gpt-4o-mini-audio-preview".toList := by
  intro priced
  have listed : ("gpt-4o-mini".toList, ⟨15 / 100, 60 / 100⟩) ∈ prices := by
    simp only [prices, List.mem_cons, true_or, or_true]
  have preview : isSnapshot "-audio-preview".toList = true :=
    priced.dated listed rfl (by decide)
  exact absurd preview (by decide)

end ConvoScore
