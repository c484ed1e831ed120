import NostrLn.Grant.Store
import NostrLn.Profile.Text
import NostrLn.Service.Budget

/-!
# A grant is enforced as it was written

The order in which a map is written is that of its iteration, and any order is read back as the same
permissions.
-/

namespace NostrLn

open Serde Json

/-! ### The same permissions -/

lemma perm_foldl_insert {es : List (String × MethodAccessRule)} {m : AccessMap}
    (hnodup : (es.map Prod.fst).Nodup) (hnew : ∀ e ∈ es, e.1 ∉ m) :
    (es.foldl (fun m e => m.insert e.1 e.2) m).entries.Perm
      (es.map (fun e => ⟨e.1, e.2⟩) ++ m.entries) := by
  induction es generalizing m with
  | nil => exact .refl _
  | cons e es ih =>
    rw [List.map_cons, List.nodup_cons] at hnodup
    rw [List.forall_mem_cons] at hnew
    have hes : ∀ e' ∈ es, e'.1 ∉ m.insert e.1 e.2 := by
      intro e' he' hmem
      rcases (AList.mem_insert m).mp hmem with heq | hmem
      · exact hnodup.1 (heq ▸ List.mem_map_of_mem he')
      · exact hnew.2 e' he' hmem
    refine (ih hnodup.2 hes).trans ?_
    rw [AList.entries_insert_of_notMem hnew.1, List.map_cons, List.cons_append]
    exact List.perm_middle

/-- A map that is made of the entries of another has these entries. -/
lemma AccessMap.perm_ofEntries (m : AccessMap) :
    (AccessMap.ofEntries m.toEntries).entries.Perm m.entries := by
  have hkeys : (m.toEntries.map Prod.fst).Nodup := by
    rw [AccessMap.toEntries, List.map_map]
    exact m.nodupKeys
  have hperm := perm_foldl_insert hkeys fun e _ => AList.notMem_empty (a := e.1)
  have hentries : m.toEntries.map (fun e => (⟨e.1, e.2⟩ : Σ _ : String, MethodAccessRule)) =
      m.entries := by
    rw [AccessMap.toEntries, List.map_map]
    exact List.map_id _
  rw [hentries, AList.empty_entries, List.append_nil] at hperm
  exact hperm

section

variable {map : Option AccessMap}

lemma lookup_reread (name : String) :
    lookup (map.map fun m => .ofEntries m.toEntries) name = lookup map name := by
  cases map with
  | none => rfl
  | some m =>
    simp only [lookup, matched, Option.map_some, AList.perm_lookup m.perm_ofEntries]

lemma rulesOk_reread : rulesOk (map.map fun m => .ofEntries m.toEntries) = rulesOk map := by
  cases map with
  | none => rfl
  | some m =>
    rw [Bool.eq_iff_iff, rulesOk_iff, rulesOk_iff]
    simp only [Option.map_some, Option.mem_def, Option.some.injEq, forall_eq',
      AList.perm_lookup m.perm_ofEntries]

lemma isEmpty_reread :
    ((map.map fun m => AccessMap.ofEntries m.toEntries).all fun m => m.entries.isEmpty) =
      map.all fun m => m.entries.isEmpty := by
  cases map with
  | none => rfl
  | some m =>
    rw [Option.map_some, Option.all_some, Option.all_some, Bool.eq_iff_iff, List.isEmpty_iff,
      List.isEmpty_iff]
    exact ⟨fun h => (h ▸ m.perm_ofEntries).nil_eq.symm, fun h => (h ▸ m.perm_ofEntries).eq_nil⟩

end

variable {p : UsageProfile}

lemma UsageProfile.isValid_reread : p.reread.isValid = p.isValid := by
  simp only [UsageProfile.isValid, UsageProfile.reread, rulesOk_reread]

lemma UsageProfile.isEmpty_reread : p.reread.isEmpty = p.isEmpty := by
  simp only [UsageProfile.isEmpty, UsageProfile.reread, NostrLn.isEmpty_reread]

lemma UsageProfile.allowsWallet_reread (name : String) :
    p.reread.allowsWallet name = p.allowsWallet name := by
  rw [UsageProfile.allowsWallet_eq, UsageProfile.allowsWallet_eq, UsageProfile.isValid_reread]
  simp only [UsageProfile.reread, lookup_reread]

lemma UsageProfile.allowsControl_reread (name : String) :
    p.reread.allowsControl name = p.allowsControl name := by
  rw [UsageProfile.allowsControl_eq, UsageProfile.allowsControl_eq, UsageProfile.isValid_reread]
  simp only [UsageProfile.reread, lookup_reread]

lemma UsageProfile.allowsNotification_reread (ty : String) :
    p.reread.allowsNotification ty = p.allowsNotification ty := by
  simp only [UsageProfile.allowsNotification, UsageProfile.guard, UsageProfile.isValid_reread]
  simp only [UsageProfile.reread, lookup_reread]

/-- Of a profile, a request reads what it allows and the quota. -/
lemma Request.handle_of_allows (explain : Explain) {q : Request} (u : Usage) {grants' : Grants}
    {g g' : VerifiedGrant} (hg : q.grants.resolve q.controller = .ok g)
    (hg' : grants'.resolve q.controller = .ok g')
    (hallows : ∀ name, q.handler.allows g.profile name = q.handler.allows g'.profile name)
    (hquota : g.profile.quota = g'.profile.quota) :
    { q with grants := grants' }.handle explain u = q.handle explain u := by
  by_cases himpl : q.handler.implements q.method.asStr = true
  case neg => simp [Request.handle, NostrLn.handle, NostrLn.vet, himpl]
  simp only [Request.handle, NostrLn.handle, NostrLn.vet, himpl, Bool.not_true,
    Bool.false_eq_true, if_false, hg, hg', hallows]
  cases q.handler.allows g'.profile q.method.asStr with
  | error d => rfl
  | ok rule =>
    cases validate explain q.handler q.method q.params with
    | error e => rfl
    | ok => simp only [hquota]

/-- **A grant is enforced as it was written.** If the content of a grant is the text of a profile,
written in any order, the node that reads it decides every request, and every notification, as if it
had been given the profile itself; and it is a revocation exactly if the profile is empty. -/
theorem grant_enforced_as_written (floats : Floats) (p : UsageProfile) (e : Event)
    (hcontent : e.content = p.render) :
    let g := VerifiedGrant.ofEvent (parseText (readUsageProfile floats)) e
    (∀ (explain : Explain) (q : Request) (u : Usage) (grants' : Grants),
      q.grants.resolve q.controller = .ok g →
      grants'.resolve q.controller = .ok { g with profile := p } →
      { q with grants := grants' }.handle explain u = q.handle explain u) ∧
    (∀ ty, g.profile.allowsNotification ty = p.allowsNotification ty) ∧
    g.profile.isEmpty = p.isEmpty := by
  intro g
  have hprofile : g.profile = p.reread := by
    have hparse := parseProfile_render floats p
    simp only [g, VerifiedGrant.ofEvent, hcontent, hparse, Option.getD_some]
  rw [hprofile]
  refine ⟨?_, fun ty => UsageProfile.allowsNotification_reread ty, UsageProfile.isEmpty_reread⟩
  intro explain q u grants' hg hg'
  refine Request.handle_of_allows explain u hg hg' ?_ ?_
  · intro name
    rw [hprofile]
    cases hh : q.handler with
    | control s => exact UsageProfile.allowsControl_reread name
    | wallet s => exact UsageProfile.allowsWallet_reread name
  · rw [hprofile]
    rfl

namespace Sample

/-- A payment a minute, five at once; anything of the node; and a thousand satoshis in all. -/
def pocketMoney : UsageProfile where
  methods := some (.ofEntries
    [("pay_invoice", { rate := some { amount := 1, perSecs := 60, maxCapacity := 5 } })])
  control := some (.ofEntries [(othersKey, { rate := none })])
  notifications := none
  quota := some { amount := 0, perSecs := 1, maxCapacity := 1000 }

/-- The grant of pocket money for `key 4`, as the node reads it. -/
def pocketGrant : VerifiedGrant :=
  VerifiedGrant.ofEvent readProfile (grantEvent 2 (key 4).toHex pocketMoney.render 1)

/-- `key 4` spends some of it. -/
def spending : Request :=
  { payment 40 100 with grants := grantedBy2 (key 4).toHex pocketMoney.render }

/-- The same, with the profile itself in the store. -/
def spendingByProfile : Request :=
  { spending with
    grants := (Grants.new (key 1) [key 2]).store (key 4).toHex
      { pocketGrant with profile := pocketMoney } }

lemma resolve_store_new (v : VerifiedGrant) :
    ((Grants.new (key 1) [key 2]).store (key 4).toHex v).resolve (key 4) = .ok v := by
  rw [Grants.resolve_eq_ok_iff, Grants.getRaw_store, if_pos rfl]
  rfl

end Sample

open Sample in
/-- Pocket money is no revocation, and can be spent as the profile says. -/
theorem pocket_money_enforced_as_written :
    spendingByProfile.handle (fun _ _ => "") Usage.new = spending.handle (fun _ _ => "") Usage.new ∧
      (spending.handle (fun _ _ => "") Usage.new).result.isOk = true ∧
      pocketGrant.profile.isEmpty = false := by
  obtain ⟨hrequests, _, hempty⟩ := grant_enforced_as_written noFloats pocketMoney
    (grantEvent 2 (key 4).toHex pocketMoney.render 1) rfl
  have hgranted : spending.grants.resolve spending.controller = .ok pocketGrant := by
    rw [spending, grantedBy2_eq (key 4).toHex_ne_empty]
    exact resolve_store_new _
  refine ⟨?_, by decide +kernel, hempty.trans (by decide)⟩
  exact hrequests (fun _ _ => "") spending Usage.new _ hgranted (resolve_store_new _)

end NostrLn
