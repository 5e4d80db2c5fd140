import Composable.Lending.Markets

/-!
# `Lending.Validity` — stored markets are valid

A market is created with a collateral factor above one and an interest rate model that its
constructor accepts. The input of `update_market` is not validated, so its manager can store
anything (`update_invalid`); the stored markets are valid all along a run exactly when every update
that a manager makes is (`stored_markets_valid_iff`).
-/

namespace Composable
namespace Lending

/-- The parameters are accepted by the constructor of the model: `JumpModel::new`,
    `CurveModel::new`, `DynamicPIDControllerModel::new` or `DoubleExponentModel::new`. -/
def InterestRateModel.Accepted : InterestRateModel → Prop
  | .jump m => m.Valid
  | .curve m => m.Valid
  | .dynamicPIDController m => m.targetUtilization ≤ Fixed.div
  | .doubleExponent m => m.Valid

/-- A freshly constructed model is accepted. -/
theorem InterestRateModel.Valid.accepted {model : InterestRateModel} (h : model.Valid) :
    model.Accepted := by
  cases model with
  | jump m => exact h
  | curve m => exact h
  | dynamicPIDController m => exact h.1
  | doubleExponent m => exact h

variable {A X F : Type}

/-- The part of a market that can be changed is valid. -/
structure MarketConfig.Valid (config : MarketConfig A X) : Prop where
  collateralFactor : Fixed.div < config.collateralFactor
  interestRateModel : config.interestRateModel.Accepted

/-- Every stored market is valid. -/
def MarketsValid (s : State A X F) : Prop :=
  ∀ m config, s.markets.lookup m = some config → config.Valid

variable [DecidableEq A] [DecidableEq X] {cfg : Config A X F} {s s' : State A X F}

/-- What each step has to meet, in the state before it: an update that a manager makes of its market
    has a collateral factor above one, and a model that its constructor accepts. -/
def ValidUpdate (s : State A X F) : Op A X → Prop
  | .updateMarket (.signed who) market input =>
      ∀ config ∈ s.markets.lookup market, who = config.manager →
      Fixed.div < input.collateralFactor ∧ input.interestRateModel.Accepted
  | _ => True

omit [DecidableEq A] [DecidableEq X] in
theorem MarketsValid.of_markets (h : MarketsValid s) (hmarkets : s'.markets = s.markets) :
    MarketsValid s' := by
  intro m config hm
  exact h m config (hmarkets ▸ hm)

omit [DecidableEq A] [DecidableEq X] in
theorem MarketsValid.insert (h : MarketsValid s) {m : Nat} {config : MarketConfig A X}
    (hvalid : config.Valid)
    (hmarkets : s'.markets = s.markets.insert m config) : MarketsValid s' := by
  intro n c hn
  rw [hmarkets] at hn
  rcases StorageMap.lookup_insert_some.mp hn with ⟨-, rfl⟩ | ⟨-, hold⟩
  · exact hvalid
  · exact h n c hold

/-- `create` checks the collateral factor once more. -/
theorem collateralFactor_of_create {env : Env X} {manager : A} {input : CreateInput X} {r : Nat × Nat}
    (h : create cfg env manager input s = (.ok r, s')) :
    Fixed.div < input.updatable.collateralFactor := by
  simp only [create, Call.bind_ok, Call.ensure_ok] at h
  obtain ⟨_, _, ⟨hfactor, -⟩, -⟩ := h
  exact hfactor

/-! ## Steps -/

/-- Only creations and updates write to the register of markets. -/
theorem Effect.register {op : Op A X} (h : Effect cfg s op s') :
    SameRegister s s' ∨
      (∃ env who input r, op = .createMarket env (.signed who) input ∧
        create cfg env who input.1 s = (.ok r, s')) ∨
      ∃ who market input, op = .updateMarket (.signed who) market input := by
  cases h with
  | idle => exact .inl (.refl s)
  | created hcreate => exact .inr (.inl ⟨_, _, _, _, rfl, hcreate⟩)
  | updated hmarket => exact .inr (.inr ⟨_, _, _, rfl⟩)
  | deposited hdeposit =>
      obtain ⟨_, -, -, rfl⟩ := depositCollateral_ok hdeposit
      exact .inl local_deposited.register
  | withdrawn hwithdraw =>
      obtain ⟨_, -, -, -, rfl⟩ := withdrawCollateral_ok hwithdraw
      exact .inl local_withdrawn.register
  | borrowed hborrow =>
      obtain ⟨_, _, _, -, hrent⟩ := borrow_ok hborrow
      rcases payRent_ok hrent with ⟨-, -, rfl⟩ | ⟨-, rfl⟩
      · exact .inl (local_borrowed.trans local_rented).register
      · exact .inl local_borrowed.register
  | repaid hrepay =>
      rcases repay_ok hrepay with ⟨-, rfl⟩ | ⟨_, _, _, -, -, ⟨-, rfl⟩ | ⟨-, hclose⟩⟩
      · exact .inl (.refl _)
      · exact .inl local_repaid.register
      · obtain ⟨-, rfl⟩ := closeBorrow_ok hclose
        exact .inl ((local_repaid.trans local_closed).trans (local_withLedger _)).register
  | liquidated hloop =>
      refine .inl (Call.forEach_invariant (I := SameRegister s) ?_ (.refl s) hloop)
      intro b _ t t' u ht hturn
      rcases liquidateAccount_ok hturn with ⟨-, rfl⟩ | ⟨_, _, _, _, _, _, -, -, -, -, -, rfl⟩
      · exact ht
      · exact ht.trans (local_liquidated (m := 0)).register
  | initialized hblock =>
      refine .inl (initializeBlock_invariant (I := SameRegister s) ?_ ?_ (.refl s) hblock)
      · intro t t' m u ht hturn
        obtain ⟨_, _, _, _, _, -, -, -, hfunds, rfl⟩ := initializeMarket_ok hturn
        exact ht.trans (local_accrued.trans (local_fundsMoved hfunds)).register
      · intro t ht
        exact ht.trans (local_stamped 0).register

/-- An update goes through only for the manager of the market. -/
theorem step_updateMarket {who : A} {m : Nat} {input : UpdateInput}
    (h : step cfg s (.updateMarket (.signed who) m input) = some s') :
    s' = s ∨ ∃ config, s.markets.lookup m = some config ∧ who = config.manager ∧
      s' = { s with markets := s.markets.insert m (config.update input) } := by
  rcases signed_cases (Option.some.inj h).symm with rfl | ⟨_, _, horigin, hbody⟩
  · exact .inl rfl
  · obtain rfl := RawOrigin.signed.inj horigin
    simp only [Call.bind_ok, getMarket_ok, Call.ensure_ok, Call.modify_ok, and_assoc, exists_and_left,
      exists_eq_left, exists_const] at hbody
    obtain ⟨config, hmarket, hmanager, rfl⟩ := hbody
    exact .inr ⟨config, hmarket, hmanager, rfl⟩

/-- For the manager it always does. -/
theorem step_updateMarket_manager {m : Nat} {input : UpdateInput} {config : MarketConfig A X}
    (hmarket : s.markets.lookup m = some config) :
    step cfg s (.updateMarket (.signed config.manager) m input) =
      some { s with markets := s.markets.insert m (config.update input) } := by
  have hok : updateMarket (.signed config.manager) m input s =
      (.ok (), { s with markets := s.markets.insert m (config.update input) }) := by
    simp only [updateMarket, Call.transactional_ok, Call.bind_ok, ensureSigned_ok, getMarket_ok,
      Call.ensure_ok, Call.modify_ok, and_assoc, exists_and_left, exists_eq_left, exists_const]
    exact ⟨_, rfl, config, hmarket, rfl, rfl⟩
  rw [step, dispatch, hok]

/-- The operation brings no new configuration for market `m`. -/
def Op.KeepsConfig (m : Nat) : Op A X → Prop
  | .updateMarket _ market _ => market ≠ m
  | _ => True

/-- Without one, the configuration stays. -/
theorem lookup_kept {op : Op A X} {m : Nat} {config : MarketConfig A X} (hr : Registered cfg s)
    (hop : op.KeepsConfig m) (hstep : step cfg s op = some s')
    (hmarket : s.markets.lookup m = some config) : s'.markets.lookup m = some config := by
  rcases (step_effect hstep).register with
    hsame | ⟨env, who, input, r, rfl, hcreate⟩ | ⟨who, market, input, rfl⟩
  · rw [hsame.markets, hmarket]
  · obtain ⟨lpToken, debtAsset, factory, factory', poolSize, -, rfl⟩ := create_ok hcreate
    have hne : m ≠ s.lendingCount + 1 := (Nat.lt_succ_of_le (hr.listed hmarket).le_count).ne
    exact (AList.lookup_insert_ne hne).trans hmarket
  · rcases step_updateMarket hstep with rfl | ⟨_, -, -, rfl⟩
    · exact hmarket
    · have hne : m ≠ market := Ne.symm hop
      exact (AList.lookup_insert_ne hne).trans hmarket

/-- A market keeps its debt token. -/
theorem debt_kept {op : Op A X} {m : Nat} {d : X} (hr : Registered cfg s)
    (hstep : step cfg s op = some s')
    (hd : s.debtMarkets m = some d) : s'.debtMarkets m = some d := by
  rcases (step_effect hstep).register with
    hsame | ⟨env, who, input, r, rfl, hcreate⟩ | ⟨who, market, input, rfl⟩
  · rw [hsame.debtMarkets, hd]
  · obtain ⟨lpToken, debtAsset, factory, factory', poolSize, -, rfl⟩ := create_ok hcreate
    exact debt_created.mpr (.inr ⟨(Nat.lt_succ_of_le (hr.isSome_le hd)).ne, hd⟩)
  · rcases step_updateMarket hstep with rfl | ⟨_, -, -, rfl⟩
    · exact hd
    · exact hd

/-- A vault stays as it is. -/
theorem vault_kept {op : Op A X} {id : Nat} (hid : id ≤ s.vault.vaultCount)
    (hstep : step cfg s op = some s') : s'.vault.vaults id = s.vault.vaults id := by
  rcases (step_effect hstep).register with
    hsame | ⟨env, who, input, r, rfl, hcreate⟩ | ⟨who, market, input, rfl⟩
  · rw [hsame.vaults]
  · obtain ⟨lpToken, debtAsset, factory, factory', poolSize, -, rfl⟩ := create_ok hcreate
    exact Function.update_of_ne (Nat.lt_succ_of_le hid).ne ..
  · rcases step_updateMarket hstep with rfl | ⟨_, -, -, rfl⟩
    · rfl
    · rfl

/-- A valid update keeps the stored markets valid, and so does every other step. -/
theorem MarketsValid.step {op : Op A X} (h : MarketsValid s) (hop : ValidUpdate s op)
    (hstep : step cfg s op = some s') : MarketsValid s' := by
  rcases (step_effect hstep).register with hsame | ⟨env, who, input, r, rfl, hcreate⟩ |
    ⟨who, market, input, rfl⟩
  · exact h.of_markets hsame.markets
  · have hfactor := collateralFactor_of_create hcreate
    obtain ⟨lpToken, debtAsset, factory, factory', poolSize, -, rfl⟩ := create_ok hcreate
    exact h.insert ⟨hfactor, input.2.interestRateModel.accepted⟩ rfl
  · rcases step_updateMarket hstep with rfl | ⟨config, hmarket, hmanager, rfl⟩
    · exact h
    · obtain ⟨hfactor, hmodel⟩ := hop config hmarket hmanager
      exact h.insert ⟨hfactor, hmodel⟩ rfl

/-- An update that is not valid leaves a market that is not. -/
theorem not_marketsValid_step {op : Op A X} (hop : ¬ ValidUpdate s op) :
    ∃ s', Lending.step cfg s op = some s' ∧ ¬ MarketsValid s' := by
  cases op with
  | updateMarket origin market input =>
      cases origin with
      | signed who =>
          simp only [ValidUpdate, Option.mem_def, not_forall] at hop
          obtain ⟨config, hmarket, rfl, hinvalid⟩ := hop
          refine ⟨_, step_updateMarket_manager hmarket, fun hvalid => ?_⟩
          obtain ⟨hfactor, hmodel⟩ := hvalid market _ (AList.lookup_insert _)
          exact hinvalid ⟨hfactor, hmodel⟩
      | root => exact absurd trivial hop
      | none => exact absurd trivial hop
  | _ => exact absurd trivial hop

/-! ## Runs -/

/-- **Stored markets are valid** all along a run exactly when every update by a manager is. -/
theorem stored_markets_valid_iff (cfg : Config A X F) (ledger : Ledger A X) (factory : F) (now : Nat)
    (ops : List (Op A X)) :
    Throughout (step cfg) MarketsValid (State.genesis ledger factory now) ops ↔
      Along (step cfg) ValidUpdate (State.genesis ledger factory now) ops := by
  have hgenesis : MarketsValid (State.genesis ledger factory now : State A X F) := nofun
  exact throughout_iff_along (I := MarketsValid) id (fun h hop hstep => h.step hop hstep)
    (fun _ hop => not_marketsValid_step hop) hgenesis

/-- The manager of a market sets its collateral factor to zero. -/
def invalidOps : List (Op Nat Nat) :=
  [.createMarket ⟨0, sampleOracle fun _ => 1⟩ (.signed 7) ⟨sampleInput, sampleInput_valid⟩,
    .updateMarket (.signed 7) 1 { sampleInput.updatable with collateralFactor := 0 }]

/-- **An invalid market is stored.** -/
theorem update_invalid :
    ∃ s config, run (step sample) (State.genesis sampleLedger 100 0) invalidOps = some s ∧
    s.markets.lookup 1 = some config ∧ ¬ config.Valid := by
  have hview : (run (step sample) (State.genesis sampleLedger 100 0) invalidOps).map
      (fun s => (s.markets.lookup 1).map MarketConfig.collateralFactor) = some (some 0) := by
        decide +kernel
  obtain ⟨s, hrun, hs⟩ := Option.map_eq_some_iff.mp hview
  obtain ⟨config, hmarket, hfactor⟩ := Option.map_eq_some_iff.mp hs
  refine ⟨s, config, hrun, hmarket, fun hvalid => ?_⟩
  have hlarge := hvalid.collateralFactor
  rw [hfactor] at hlarge
  exact absurd hlarge (by decide)

end Lending
end Composable
