import C3po.Ensemble.Models
import C3po.Library.Latest

/-! What the models see of the peers: the set of those that are eligible, and no price of the company.

A peer that is not eligible is skipped, and two eligible ones of one issuer are refused. So
the peers selected are the eligible ones in the order of their issuers.
-/

set_option autoImplicit false

namespace C3po.Ensemble
open C3po.Library

variable {env : Environment} {company peer : CompanyInputs} {premises : Premises} {peers others : List CompanyInputs}

/-- A valid peer of another issuer, of the company's currency, instant, sector and financial class. -/
def Eligible (env : Environment) (company peer : CompanyInputs) : Prop :=
  peer.issuerId ≠ company.issuerId ∧ peer.validate env = .ok () ∧ peer.currency = company.currency ∧
    utc peer.asOf = utc company.asOf ∧ peer.sectorAtT env = company.sectorAtT env ∧
    peer.financialCompany = company.financialCompany

instance (env : Environment) (company peer : CompanyInputs) : Decidable (Eligible env company peer) :=
  inferInstanceAs (Decidable (_ ∧ _ ∧ _ ∧ _ ∧ _ ∧ _))

def eligibleOf (env : Environment) (company : CompanyInputs) (peers : List CompanyInputs) : List CompanyInputs :=
  peers.filter fun peer => decide (Eligible env company peer)

section Refusals

/-- What never refuses as a duplicate does. -/
def Plain {A : Type} (call : Evaluated A) : Prop := ∀ reason, call = .error reason → reason ≠ duplicate

variable {A B : Type}

theorem plain_pure (value : A) : Plain (pure value : Evaluated A) := fun _ never => nomatch never

theorem plain_error {reason : String} (other : reason ≠ duplicate) : Plain (.error reason : Evaluated A) := by
  intro refusal same
  cases same
  exact other

theorem plain_bind {call : Evaluated A} {next : A → Evaluated B} (first : Plain call) (rest : ∀ value, Plain (next value)) :
    Plain (call >>= next) := by
  intro reason refused
  rcases bind_error refused with here | ⟨value, _, later⟩
  · exact first reason here
  · exact rest value reason later

theorem plain_ite {condition : Prop} [Decidable condition] {first second : Evaluated A} (yes : Plain first) (no : Plain second) :
    Plain (if condition then first else second) := by
  split
  · exact yes
  · exact no

theorem plain_refuse {condition : Prop} [Decidable condition] {reason : String} {next : PUnit → Evaluated A}
    (other : reason ≠ duplicate) (rest : Plain (next ⟨⟩)) :
    Plain (if condition then throw reason >>= next else next ⟨⟩) := by
  split
  · exact plain_bind (plain_error other) fun _ => rest
  · exact rest

theorem source_plain (source : String) : "source_not_allowed:" ++ source ≠ duplicate := by
  intro same
  have letters := congrArg (fun text => text.toList.head?) same
  simp [duplicate] at letters

theorem utc_plain (instant : Option Int) : Plain (utc instant) := by
  unfold utc
  split
  · exact plain_error (by decide)
  · exact plain_pure _

theorem check_plain (evidence : Evidence) (asOf : Option Int) (allowed : List String) :
    Plain (evidence.check env asOf allowed) := by
  unfold Evidence.check
  refine plain_refuse (source_plain _) ?_
  refine plain_refuse (fun never => absurd never (by decide)) ?_
  refine plain_bind (utc_plain _) fun available => plain_bind (utc_plain _) fun cut => ?_
  exact plain_ite (plain_error (by decide)) (plain_pure _)

theorem number_plain (value : Option ℚ) (name : String) : Plain (numberOf value name) := by
  unfold numberOf
  split
  · refine plain_error fun same => ?_
    have letters := congrArg (fun text => text.toList.head?) same
    simp [duplicate] at letters
  · exact plain_pure _

theorem economicDate_plain (company : CompanyInputs) : Plain (company.economicDate env) :=
  plain_bind (utc_plain _) fun _ => plain_pure _

theorem validate_plain (company : CompanyInputs) : Plain (company.validate env) := by
  unfold CompanyInputs.validate
  refine plain_bind (utc_plain _) fun cut => ?_
  refine plain_refuse (fun never => absurd never (by decide)) ?_
  refine plain_refuse (fun never => absurd never (by decide)) ?_
  refine plain_bind (check_plain _ _ _) fun _ => ?_
  refine plain_refuse (fun never => absurd never (by decide)) ?_
  refine plain_bind (economicDate_plain _) fun today => ?_
  refine plain_refuse (fun never => absurd never (by decide)) ?_
  refine plain_bind (number_plain _ _) fun price => ?_
  exact plain_ite (plain_error (by decide)) (plain_pure _)

theorem sectorAtT_plain (company : CompanyInputs) : Plain (company.sectorAtT env) := by
  unfold CompanyInputs.sectorAtT
  split
  · exact plain_error (by decide)
  · split
    · exact plain_error (by decide)
    · split
      · rename_i reason refused
        exact plain_error (check_plain _ _ _ reason refused)
      · exact plain_pure _

end Refusals

section Selection

theorem instant_of_valid (valid : peer.validate env = .ok ()) : ∃ instant, utc peer.asOf = .ok instant := by
  unfold CompanyInputs.validate at valid
  obtain ⟨instant, isInstant, _⟩ := bind_ok valid
  exact ⟨instant, isInstant⟩

theorem attempt_cases {sector : String} (sectored : company.sectorAtT env = .ok sector)
    (other : peer.issuerId ≠ company.issuerId) (selected : Dict String CompanyInputs) :
    (¬Eligible env company peer ∧ (attempt env company sector selected peer = .ok selected ∨
      ∃ reason, reason ≠ duplicate ∧ attempt env company sector selected peer = .error reason)) ∨
    Eligible env company peer ∧ attempt env company sector selected peer =
      if selected.contains peer.issuerId then .error duplicate else .ok (selected.insert peer.issuerId peer) := by
  cases valid : peer.validate env with
  | error reason =>
    refine .inl ⟨fun eligible => ?_, .inr ⟨reason, validate_plain _ _ valid, ?_⟩⟩
    · rw [eligible.2.1] at valid
      cases valid
    · simp only [attempt, valid, bind, Except.bind]
  | ok accepted =>
    obtain ⟨instant, isInstant⟩ := instant_of_valid valid
    by_cases currency : peer.currency = company.currency
    · cases isCut : utc company.asOf with
      | error reason =>
        refine .inl ⟨fun eligible => ?_, .inr ⟨reason, utc_plain _ _ isCut, ?_⟩⟩
        · have same := eligible.2.2.2.1
          rw [isInstant, isCut] at same
          cases same
        · simp only [attempt, valid, currency, isInstant, isCut, bind, Except.bind, ne_eq, not_true_eq_false, if_false]
      | ok cut =>
        by_cases instants : instant = cut
        · cases isOwn : peer.sectorAtT env with
          | error reason =>
            refine .inl ⟨fun eligible => ?_, .inr ⟨reason, sectorAtT_plain _ _ isOwn, ?_⟩⟩
            · have same := eligible.2.2.2.2.1
              rw [isOwn, sectored] at same
              cases same
            · simp only [attempt, valid, currency, isInstant, isCut, instants, isOwn, bind, Except.bind, ne_eq,
                not_true_eq_false, if_false]
          | ok own =>
            by_cases sectors : own = sector
            · by_cases classes : peer.financialCompany = company.financialCompany
              · refine .inr ⟨⟨other, valid, currency, ?_, ?_, classes⟩, ?_⟩
                · rw [isInstant, isCut, instants]
                · rw [isOwn, sectored, sectors]
                · simp only [attempt, valid, currency, isInstant, isCut, instants, isOwn, sectors, classes, bind,
                    Except.bind, ne_eq, not_true_eq_false, if_false, throw, throwThe, MonadExceptOf.throw, pure, Except.pure]
              · refine .inl ⟨fun eligible => classes eligible.2.2.2.2.2, .inl ?_⟩
                simp only [attempt, valid, currency, isInstant, isCut, instants, isOwn, sectors, classes, bind,
                  Except.bind, ne_eq, not_true_eq_false, if_false, not_false_eq_true, if_true, pure, Except.pure]
            · refine .inl ⟨fun eligible => ?_, .inl ?_⟩
              · have same := eligible.2.2.2.2.1
                rw [isOwn, sectored] at same
                exact sectors (Except.ok.inj same)
              · simp only [attempt, valid, currency, isInstant, isCut, instants, isOwn, sectors, bind,
                  Except.bind, ne_eq, not_true_eq_false, if_false, not_false_eq_true, if_true, pure, Except.pure]
        · refine .inl ⟨fun eligible => ?_, .inl ?_⟩
          · have same := eligible.2.2.2.1
            rw [isInstant, isCut] at same
            exact instants (Except.ok.inj same)
          · simp only [attempt, valid, currency, isInstant, isCut, instants, bind,
              Except.bind, ne_eq, not_true_eq_false, if_false, not_false_eq_true, if_true, pure, Except.pure]
    · refine .inl ⟨fun eligible => currency eligible.2.2.1, .inl ?_⟩
      simp only [attempt, valid, currency, bind, Except.bind, ne_eq, not_false_eq_true, if_true, pure, Except.pure]

theorem consider_eq {sector : String} (sectored : company.sectorAtT env = .ok sector) (selected : Dict String CompanyInputs) :
    consider env company sector selected peer =
      if Eligible env company peer then
        if selected.contains peer.issuerId then .error duplicate else .ok (selected.insert peer.issuerId peer)
      else .ok selected := by
  unfold consider
  by_cases own : peer.issuerId = company.issuerId
  · rw [if_pos own, if_neg fun eligible => eligible.1 own]
  rw [if_neg own]
  rcases attempt_cases sectored own selected with ⟨ineligible, same | ⟨reason, other, refused⟩⟩ | ⟨eligible, tried⟩
  · rw [same, if_neg ineligible]
  · rw [refused, if_neg ineligible]
    exact if_neg other
  · rw [tried, if_pos eligible]
    cases selected.contains peer.issuerId with
    | true => rfl
    | false => rfl

theorem consider_fold {sector : String} (sectored : company.sectorAtT env = .ok sector) (peers : List CompanyInputs)
    (selected : Dict String CompanyInputs) :
    peers.foldlM (consider env company sector) selected =
      if (selected.keys ++ (eligibleOf env company peers).map CompanyInputs.issuerId).Nodup then
        .ok ((eligibleOf env company peers).foldl (fun dict peer => dict.insert peer.issuerId peer) selected)
      else .error duplicate := by
  induction peers generalizing selected with
  | nil =>
    have distinct : (selected.keys ++ []).Nodup := by simpa using selected.keys_nodup
    exact (if_pos distinct).symm
  | cons peer rest ih =>
    rw [List.foldlM_cons, consider_eq sectored]
    by_cases eligible : Eligible env company peer
    · have isEligible : eligibleOf env company (peer :: rest) = peer :: eligibleOf env company rest := by
        unfold eligibleOf
        rw [List.filter_cons_of_pos (by simpa using eligible)]
      rw [if_pos eligible, isEligible, List.map_cons, List.foldl_cons]
      by_cases known : selected.contains peer.issuerId = true
      · rw [if_pos known, if_neg]
        · rfl
        · intro distinct
          have member : peer.issuerId ∈ selected.keys := by
            rw [Dict.mem_keys]
            exact known
          exact (List.nodup_append.mp distinct).2.2 _ member _ List.mem_cons_self rfl
      · rw [if_neg known]
        have absent : peer.issuerId ∉ selected.keys := fun member => known (by
          rw [Dict.mem_keys] at member
          exact member)
        have keys : (selected.insert peer.issuerId peer).keys = selected.keys ++ [peer.issuerId] := by
          have written : (selected.insert peer.issuerId peer).entries = selected.entries ++ [(peer.issuerId, peer)] :=
            Dict.put_absent absent
          simp [Dict.keys, written]
        have later := ih (selected.insert peer.issuerId peer)
        rw [keys, List.append_assoc, List.singleton_append] at later
        exact later
    · have isEligible : eligibleOf env company (peer :: rest) = eligibleOf env company rest := by
        unfold eligibleOf
        rw [List.filter_cons_of_neg (by simpa using eligible)]
      rw [if_neg eligible, isEligible]
      exact ih selected

theorem peersOf_eq (peers : List CompanyInputs) (premises : Premises) : peersOf env company peers premises =
    match company.sectorAtT env with
    | .error reason => .error reason
    | .ok _ =>
        if ((eligibleOf env company peers).map CompanyInputs.issuerId).Nodup then
          if (eligibleOf env company peers).length < premises.minimumPeers then
            .error "eligible_sector_peers_below_minimum"
          else .ok (stableSort CompanyInputs.issuerId (eligibleOf env company peers))
        else .error duplicate := by
  unfold peersOf
  cases sectored : company.sectorAtT env with
  | error reason => rfl
  | ok sector =>
    simp only [bind, Except.bind]
    rw [consider_fold sectored]
    by_cases distinct : ((eligibleOf env company peers).map CompanyInputs.issuerId).Nodup
    · have entries := Dict.entries_foldl_insert CompanyInputs.issuerId (eligibleOf env company peers) Dict.empty
        (by simpa [Dict.keys, Dict.empty] using distinct)
      have none : ((Dict.empty : Dict String CompanyInputs).keys ++
          (eligibleOf env company peers).map CompanyInputs.issuerId).Nodup := by
        simpa [Dict.keys, Dict.empty] using distinct
      rw [if_pos none, if_pos distinct]
      have listed : ((eligibleOf env company peers).foldl (fun dict peer => dict.insert peer.issuerId peer)
          Dict.empty).entries = (eligibleOf env company peers).map fun peer => (peer.issuerId, peer) := entries
      have size : ((eligibleOf env company peers).foldl (fun dict peer => dict.insert peer.issuerId peer)
          Dict.empty).size = (eligibleOf env company peers).length := by
        unfold Dict.size
        rw [listed, List.length_map]
      have sorted : (stableSort Prod.fst ((eligibleOf env company peers).foldl (fun dict peer =>
          dict.insert peer.issuerId peer) Dict.empty).entries).map Prod.snd =
            stableSort CompanyInputs.issuerId (eligibleOf env company peers) := by
        rw [listed, stableSort_map, List.map_map]
        exact List.map_id _
      simp only [size, sorted]
      split
      · rfl
      · rfl
    · rw [if_neg distinct, if_neg]
      simpa [Dict.keys, Dict.empty] using distinct

end Selection
end C3po.Ensemble

/-! The sixteen results depend on the set of eligible peers, and no value on the company's own price. -/

namespace C3po.Ensemble
open C3po.Library

variable {env : Environment} {company : CompanyInputs} {premises : Premises} {peers others : List CompanyInputs}

namespace Model

def ofText (text : String) : Option Model := ids.find? fun model => model.text = text

theorem ofText_text (model : Model) : ofText model.text = some model := by
  cases model <;> decide

theorem text_injective {model other : Model} (same : model.text = other.text) : model = other := by
  have found := ofText_text model
  rw [same, ofText_text] at found
  exact (Option.some.inj found).symm

end Model

section Peers

theorem peersOf_congr (same : (eligibleOf env company peers).Perm (eligibleOf env company others)) :
    peersOf env company peers premises = peersOf env company others premises := by
  rw [peersOf_eq, peersOf_eq]
  cases company.sectorAtT env with
  | error reason => rfl
  | ok sector =>
    have issuers := (same.map CompanyInputs.issuerId).nodup_iff
    by_cases distinct : ((eligibleOf env company peers).map CompanyInputs.issuerId).Nodup
    · simp only [if_pos distinct, if_pos (issuers.mp distinct), same.length_eq, stableSort_eq_of_perm same distinct]
    · simp only [if_neg distinct, if_neg fun also => distinct (issuers.mpr also)]

theorem kernel_congr (same : peersOf env company peers premises = peersOf env company others premises) (model : Model) :
    kernel env company premises peers model = kernel env company premises others model := by
  have multiples : ∀ model, multiple env company premises peers model = multiple env company premises others model := by
    intro model
    unfold multiple
    rw [same]
  have regression : sectorRegression env company premises peers = sectorRegression env company premises others := by
    unfold sectorRegression
    rw [same]
  cases model with
  | sectorRegression => exact regression
  | pe => exact multiples _
  | evEbitda => exact multiples _
  | evEbit => exact multiples _
  | evSales => exact multiples _
  | priceBook => exact multiples _
  | priceOperatingCashFlow => exact multiples _
  | _ => rfl

theorem evaluateModels_congr (same : (eligibleOf env company peers).Perm (eligibleOf env company others)) :
    evaluateModels env company premises peers = evaluateModels env company premises others := by
  unfold evaluateModels
  simp only [kernel_congr (peersOf_congr same)]

theorem evaluateModels_ok {results : List ModelValue} (evaluated : evaluateModels env company premises peers = .ok results) :
    results = Model.ids.map fun model => modelValue model (kernel env company premises peers model) := by
  unfold evaluateModels at evaluated
  obtain ⟨_, _, evaluated⟩ := bind_ok evaluated
  obtain ⟨_, _, evaluated⟩ := bind_ok evaluated
  cases evaluated
  rfl

theorem kernel_refused {reason : String} (refused : peersOf env company peers premises = .error reason) {model : Model}
    (reads : model.ofPeers = true) : ∃ reason, kernel env company premises peers model = .error reason := by
  have multiples : ∀ model, ∃ reason, multiple env company premises peers model = .error reason := by
    intro model
    unfold multiple
    cases metric env company model with
    | error other => exact ⟨other, rfl⟩
    | ok pair =>
      refine ⟨reason, ?_⟩
      simp only [bind, Except.bind, refused]
  have regression : ∃ reason, sectorRegression env company premises peers = .error reason := by
    unfold sectorRegression
    cases metric env company .sectorRegression with
    | error other => exact ⟨other, rfl⟩
    | ok pair =>
      cases income : company.any env "operating_income_ttm" with
      | error other =>
        refine ⟨other, ?_⟩
        simp only [bind, Except.bind]
      | ok value =>
        refine ⟨reason, ?_⟩
        simp only [bind, Except.bind, refused]
  cases model with
  | sectorRegression => exact regression
  | pe => exact multiples _
  | evEbitda => exact multiples _
  | evEbit => exact multiples _
  | evSales => exact multiples _
  | priceBook => exact multiples _
  | priceOperatingCashFlow => exact multiples _
  | _ => cases reads

theorem peersOf_duplicated {first second : CompanyInputs} (both : [first, second].Sublist peers)
    (firstEligible : Eligible env company first) (secondEligible : Eligible env company second)
    (issuer : first.issuerId = second.issuerId) : ∃ reason, peersOf env company peers premises = .error reason := by
  have listed : [first, second].Sublist (eligibleOf env company peers) := by
    have kept := both.filter fun peer => decide (Eligible env company peer)
    unfold eligibleOf
    simpa [firstEligible, secondEligible] using kept
  have repeated : ¬((eligibleOf env company peers).map CompanyInputs.issuerId).Nodup := by
    intro distinct
    have pair := distinct.sublist (listed.map CompanyInputs.issuerId)
    simp [issuer] at pair
  rw [peersOf_eq]
  cases company.sectorAtT env with
  | error reason => exact ⟨reason, rfl⟩
  | ok sector => exact ⟨duplicate, if_neg repeated⟩

end Peers

section Price

def CompanyInputs.priced (company : CompanyInputs) (price : Price) : CompanyInputs := { company with price := price }

variable {price : Price}

theorem metric_denominator {model : Model} {pair : ℚ × ℚ} (found : metric env company model = .ok pair) :
    denominatorOf env company model = .ok pair.2 := by
  unfold metric at found
  obtain ⟨shares, _, found⟩ := bind_ok found
  split at found
  · obtain ⟨denominator, isDenominator, found⟩ := bind_ok found
    cases found
    exact isDenominator
  · obtain ⟨_, _, found⟩ := bind_ok found
    obtain ⟨debt, _, found⟩ := bind_ok found
    dsimp only at found
    split at found
    · cases found
    · obtain ⟨denominator, isDenominator, found⟩ := bind_ok found
      cases found
      exact isDenominator

theorem multiple_priced {model : Model} {value other : ℚ} (found : multiple env company premises peers model = .ok value)
    (also : multiple env (company.priced price) premises peers model = .ok other) : value = other := by
  unfold multiple at found also
  obtain ⟨pair, isPair, found⟩ := bind_ok found
  obtain ⟨pairAlso, isPairAlso, also⟩ := bind_ok also
  have denominator := metric_denominator isPair
  have priced := metric_denominator isPairAlso
  have denominatorAlso : denominatorOf env company model = .ok pairAlso.2 := priced
  rw [denominator] at denominatorAlso
  have same : pair.2 = pairAlso.2 := Except.ok.inj denominatorAlso
  obtain ⟨market, denominator⟩ := pair
  obtain ⟨marketAlso, denominatorAlso⟩ := pairAlso
  simp only at same
  subst same
  exact Except.ok.inj (found.symm.trans also)

theorem sectorRegression_priced {value other : ℚ} (found : sectorRegression env company premises peers = .ok value)
    (also : sectorRegression env (company.priced price) premises peers = .ok other) : value = other := by
  unfold sectorRegression at found also
  obtain ⟨pair, isPair, found⟩ := bind_ok found
  obtain ⟨pairAlso, isPairAlso, also⟩ := bind_ok also
  have denominator := metric_denominator isPair
  have priced := metric_denominator isPairAlso
  have denominatorAlso : denominatorOf env company .sectorRegression = .ok pairAlso.2 := priced
  rw [denominator] at denominatorAlso
  have same : pair.2 = pairAlso.2 := Except.ok.inj denominatorAlso
  obtain ⟨market, denominator⟩ := pair
  obtain ⟨marketAlso, denominatorAlso⟩ := pairAlso
  simp only at same
  subst same
  exact Except.ok.inj (found.symm.trans also)

theorem kernel_priced {model : Model} {value other : ℚ} (found : kernel env company premises peers model = .ok value)
    (also : kernel env (company.priced price) premises peers model = .ok other) : value = other := by
  cases model with
  | sectorRegression => exact sectorRegression_priced found also
  | pe => exact multiple_priced found also
  | evEbitda => exact multiple_priced found also
  | evEbit => exact multiple_priced found also
  | evSales => exact multiple_priced found also
  | priceBook => exact multiple_priced found also
  | priceOperatingCashFlow => exact multiple_priced found also
  | _ => exact Except.ok.inj (found.symm.trans also)

theorem modelValue_evaluated {model : Model} {call : Evaluated ℚ} {name : String} {value : ℚ}
    (evaluated : modelValue model call = ⟨name, some value, .evaluated, none⟩) : name = model.text ∧ call = .ok value := by
  unfold modelValue at evaluated
  split at evaluated
  · cases evaluated
  · split at evaluated
    · cases evaluated
    · cases evaluated
      exact ⟨rfl, rfl⟩

end Price

section Example

private def noon : Int := 63760737600000000

private def plainEnvironment : Environment where
  log value := value - 1
  exp value := value + 1
  strip text := text
  localDate _ instant := instant / 86400000000 + 1

private def evidenceOf (source : String) : Evidence :=
  ⟨source, "filing", some noon, "0000000000000000000000000000000000000000000000000000000000000000"⟩

private def factOf (value : ℚ) (unit : String) : OfficialFact := ⟨some value, unit, some 737972, evidenceOf "SEC"⟩

private def issuer (id : String) (price income : ℚ) : CompanyInputs where
  symbol := id
  market := "NYSE"
  currency := "USD"
  asOf := some noon
  basisId := "basis"
  price := ⟨some price, "USD", some 737972, "basis", evidenceOf "PRICE"⟩
  facts := ⟨[("shares", factOf 100 "shares"), ("net_income_ttm", factOf income "USD")], by
    show ["shares", "net_income_ttm"].Nodup
    decide⟩
  sector := "Software"
  sectorEvidence := some (evidenceOf "SEC")
  financialCompany := some false
  issuerId := id

private def three : List CompanyInputs := [issuer "B" 10 50, issuer "C" 20 50, issuer "D" 30 50]

private def threePremises : Premises := ⟨"policy", Dict.empty, [], 3⟩

private theorem evaluated (price : ℚ) (isPrice : price = 10 ∨ price = 12) : ∃ results,
    evaluateModels plainEnvironment (issuer "A" price 25) threePremises three = .ok results ∧
      ⟨"pe", some 10, .evaluated, none⟩ ∈ results := by
  have valid : (issuer "A" price 25).validate plainEnvironment = .ok () := by
    rcases isPrice with rfl | rfl <;> decide +kernel
  have received : threePremises.receipt plainEnvironment = .ok () := by decide +kernel
  have pe : kernel plainEnvironment (issuer "A" price 25) threePremises three .pe = .ok 10 := by
    rcases isPrice with rfl | rfl <;> decide +kernel
  refine ⟨_, by unfold evaluateModels; rw [valid, received]; rfl, ?_⟩
  refine List.mem_map.mpr ⟨.pe, by decide, ?_⟩
  rw [pe]
  decide +kernel

end Example
end C3po.Ensemble
