import NostrLn.Service.Names

/-!
# What a service advertises

The list of methods is not written by hand: an attribute on the `impl` block reads the names of the
functions in it, and the service publishes them in an info event, with blanks between. Functions
that the block leaves out have a body all the same, the one of the trait, which says that they are
not implemented. Nobody gets to hear it from there: the pipeline goes by the list.
-/

namespace NostrLn

open Serde

def walletInfoKind : UInt16 := 13194

def controlInfoKind : UInt16 := 13198

/-! ### The attribute -/

/-- An item of an `impl` block: a function of the trait with its body, the hook `prepare`, the
declaration `notifications`, a list of `methods` written by hand, or what is no function. -/
inductive ImplItem (Fn : Type)
  | fn (fn : Fn) (body : Decoded → Caller → Answer)
  | prepare (body : String → Value → Caller → Except NncError Prepared)
  | notifications (names : List String)
  | methods (names : List String)
  | other

section

variable {Fn : Type}

/-- The name of the function that the item is. -/
def ImplItem.ident (name : Fn → String) : ImplItem Fn → Option String
  | .fn f _ => some (name f)
  | .prepare _ => some "prepare"
  | .notifications _ => some "notifications"
  | .methods _ => some "methods"
  | .other => none

/-- Functions that are not methods a controller can call. -/
def notAMethod : List String := ["prepare", "methods", "call", "notifications"]

/-- `#[service]`: the list of methods that is generated for a block, unless one is there already. -/
def service (name : Fn → String) (block : List (ImplItem Fn)) : Option (List String) :=
  let names := block.filterMap fun item =>
    (item.ident name).filter fun n => !notAMethod.contains n
  if block.any fun item => item.ident name = some "methods" then none else some names

/-- The body of a function, if the block has one. -/
def ImplItem.body [DecidableEq Fn] (f : Fn) : ImplItem Fn → Option (Decoded → Caller → Answer)
  | .fn f' body => if f' = f then some body else none
  | _ => none

/-- The hook, if the block has one. -/
def ImplItem.hook : ImplItem Fn →
    Option (String → Value → Caller → Except NncError Prepared)
  | .prepare body => some body
  | _ => none

/-- The declaration, if the block has one. -/
def ImplItem.declared : ImplItem Fn → Option (List String)
  | .notifications names => some names
  | _ => none

/-- An `impl` block that compiles: no function is there twice, and the attribute has generated the
list. -/
structure Impl (Fn : Type) (name : Fn → String) where
  block : List (ImplItem Fn)
  methods : List String
  once : (block.filterMap (ImplItem.ident name)).Nodup
  generated : service name block = some methods

variable [DecidableEq Fn] {name : Fn → String}

/-- A call of a function: its body in the block, or the default of the trait. -/
def Impl.call (impl : Impl Fn name) (f : Fn) (d : Decoded) (caller : Caller) : Answer :=
  match impl.block.findSome? (ImplItem.body f) with
  | some body => body d caller
  | none => .error (.notImplemented (name f))

/-- What is called for `prepare`: by default, everything is free. -/
def Impl.prepare (impl : Impl Fn name) (method : String) (params : Value) (caller : Caller) :
    Except NncError Prepared :=
  match impl.block.findSome? ImplItem.hook with
  | some body => body method params caller
  | none => .ok { costSats := 0 }

/-- The notifications that are declared: by default, none. -/
def Impl.notifications (impl : Impl Fn name) : List String :=
  (impl.block.findSome? ImplItem.declared).getD []

end

/-- The control service of a block. -/
def Impl.control (impl : Impl ControlFn ControlFn.name) : ControlService where
  methods := impl.methods
  prepare := impl.prepare
  call := impl.call

/-- The wallet service of a block. -/
def Impl.wallet (impl : Impl WalletFn WalletFn.name) : WalletService where
  methods := impl.methods
  prepare := impl.prepare
  call := impl.call

/-! ### Info events -/

/-- Words with blanks between. -/
def joined (words : List String) : String :=
  String.ofList ([' '].intercalate (words.map String.toList))

/-- The info event of a wallet. It says which notifications it sends, if it sends any. -/
def walletInfo (methods notifications : List String) : Outgoing where
  kind := walletInfoKind
  content := joined methods
  tags := [["encryption", "nip44_v2"]] ++
    (if notifications.isEmpty then [] else [["notifications", joined notifications]])

/-- The info event of a node that can be administered. -/
def controlInfo (methods : List String) : Outgoing where
  kind := controlInfoKind
  content := joined methods
  tags := [["encryption", "nip44_v2"]]

/-- What is published when the service starts. -/
def publishInfo (wallet : Option (Impl WalletFn WalletFn.name))
    (control : Option (Impl ControlFn ControlFn.name)) : List Outgoing :=
  (wallet.map fun w => walletInfo w.methods w.notifications).toList ++
    (control.map fun c => controlInfo c.methods).toList

/-- The words of a text. -/
def wordsOf (content : String) : List String :=
  ((content.toList.splitOn ' ').filter fun w => !w.isEmpty).map String.ofList

/-! ### The list is that of the functions -/

section

variable {Fn : Type} {name : Fn → String}

/-- The function that the item is, if it is a method. -/
def ImplItem.method : ImplItem Fn → Option Fn
  | .fn f _ => some f
  | _ => none

/-- The functions of a block, in order. -/
def Impl.functions (impl : Impl Fn name) : List Fn := impl.block.filterMap ImplItem.method

/-- The attribute lists the functions, if none is called as what is no method. -/
lemma Impl.methods_eq (impl : Impl Fn name) (hname : ∀ f, name f ∉ notAMethod) :
    impl.methods = impl.functions.map name := by
  have hgenerated := impl.generated
  rw [service] at hgenerated
  split_ifs at hgenerated
  rw [← Option.some.inj hgenerated, Impl.functions, List.map_filterMap]
  refine congrArg (List.filterMap · impl.block) ?_
  funext item
  cases item with
  | fn f body =>
    have hmethod := hname f
    simp [ImplItem.ident, ImplItem.method, Option.filter, hmethod]
  | _ => rfl

variable [DecidableEq Fn]

lemma ImplItem.isSome_body_iff {f : Fn} {item : ImplItem Fn} :
    (item.body f).isSome = true ↔ item.method = some f := by
  cases item with
  | fn f' body =>
    by_cases h : f' = f
    · simp [ImplItem.body, ImplItem.method, h]
    · simp [ImplItem.body, ImplItem.method, h]
  | _ => simp [ImplItem.body, ImplItem.method]

/-- A function has a body in the block if it is one of the block's. -/
lemma Impl.isSome_body_iff (impl : Impl Fn name) (f : Fn) :
    (impl.block.findSome? (ImplItem.body f)).isSome = true ↔ f ∈ impl.functions := by
  rw [List.isSome_findSome?, List.any_eq_true, Impl.functions, List.mem_filterMap]
  simp only [ImplItem.isSome_body_iff]

/-- What is listed under the name of a function has its body in the block. -/
lemma Impl.exists_body (impl : Impl Fn name) (hname : ∀ f, name f ∉ notAMethod)
    (hinj : Function.Injective name) {f : Fn} (h : name f ∈ impl.methods) :
    ∃ body, impl.block.findSome? (ImplItem.body f) = some body := by
  rw [impl.methods_eq hname, List.mem_map] at h
  obtain ⟨f', hf', hsame⟩ := h
  rw [← hinj hsame, ← Option.isSome_iff_exists, impl.isSome_body_iff]
  exact hf'

end

lemma ControlFn.name_injective : Function.Injective ControlFn.name := by
  intro f f' h
  have hf := f.controlFn_fromStr_name
  rw [h, f'.controlFn_fromStr_name] at hf
  exact (Except.ok.inj hf).symm

lemma WalletFn.name_injective : Function.Injective WalletFn.name := by
  intro f f' h
  have hf := f.walletFn_fromStr_name
  rw [h, f'.walletFn_fromStr_name] at hf
  exact (Except.ok.inj hf).symm

lemma ControlFn.name_notMem (f : ControlFn) : f.name ∉ notAMethod := by
  cases f <;> decide

lemma WalletFn.name_notMem (f : WalletFn) : f.name ∉ notAMethod := by
  cases f <;> decide

/-- A word: it is not empty, and there is no blank in it. -/
def IsWord (w : String) : Prop := w.toList ≠ [] ∧ ' ' ∉ w.toList

lemma ControlFn.isWord_name (f : ControlFn) : IsWord f.name := by
  cases f <;> exact ⟨by decide, by decide⟩

lemma WalletFn.isWord_name (f : WalletFn) : IsWord f.name := by
  cases f <;> exact ⟨by decide, by decide⟩

/-- The words that were joined are found again. -/
lemma wordsOf_joined {ws : List String} (h : ∀ w ∈ ws, IsWord w) : wordsOf (joined ws) = ws := by
  rw [wordsOf, joined, String.toList_ofList]
  by_cases hnil : ws = []
  · subst hnil
    rfl
  · have hblank : ∀ l ∈ ws.map String.toList, ' ' ∉ l := by
      intro l hl
      obtain ⟨w, hw, rfl⟩ := List.mem_map.mp hl
      exact (h w hw).2
    have hfull : (ws.map String.toList).filter (fun w => !w.isEmpty) = ws.map String.toList := by
      rw [List.filter_eq_self]
      intro l hl
      obtain ⟨w, hw, rfl⟩ := List.mem_map.mp hl
      simpa using (h w hw).1
    rw [List.splitOn_intercalate ' ' hblank (by simpa using hnil), hfull, List.map_map]
    have hid : String.ofList ∘ String.toList = id := funext fun w => String.ofList_toList (s := w)
    rw [hid, List.map_id]

/-! ### A node that was built with the attribute -/

/-- What a node has for one of the protocols. -/
inductive NodeImpl
  | control (impl : Impl ControlFn ControlFn.name)
  | wallet (impl : Impl WalletFn WalletFn.name)

namespace NodeImpl

/-- The handler the pipeline is given. -/
def handler : NodeImpl → Handler
  | .control impl => .control impl.control
  | .wallet impl => .wallet impl.wallet

/-- The names of the functions that the node has written. -/
def names : NodeImpl → List String
  | .control impl => impl.functions.map ControlFn.name
  | .wallet impl => impl.functions.map WalletFn.name

/-- The info event that is published for it. -/
def info : NodeImpl → Outgoing
  | .control impl => controlInfo impl.methods
  | .wallet impl => walletInfo impl.methods impl.notifications

/-- What the node's own body gives for a call, if the node has written one. -/
def written : NodeImpl → Call → Option Answer
  | .control impl, .control f d caller =>
    (impl.block.findSome? (ImplItem.body f)).map fun body => body d caller
  | .wallet impl, .wallet f d caller =>
    (impl.block.findSome? (ImplItem.body f)).map fun body => body d caller
  | _, _ => none

lemma methods_handler (node : NodeImpl) : node.handler.methods = node.names := by
  cases node with
  | control impl => exact impl.methods_eq ControlFn.name_notMem
  | wallet impl => exact impl.methods_eq WalletFn.name_notMem

lemma wordsOf_info (node : NodeImpl) : wordsOf node.info.content = node.names := by
  have hwords : ∀ w ∈ node.names, IsWord w := by
    intro w hw
    cases node with
    | control impl =>
      obtain ⟨f, _, rfl⟩ := List.mem_map.mp hw
      exact f.isWord_name
    | wallet impl =>
      obtain ⟨f, _, rfl⟩ := List.mem_map.mp hw
      exact f.isWord_name
  have hcontent : node.info.content = joined node.names := by
    rw [← node.methods_handler]
    cases node <;> rfl
  rw [hcontent, wordsOf_joined hwords]

/-- A dispatch under a name that is listed comes to a body that the node has written. -/
lemma dispatch_written (node : NodeImpl) {explain : Explain} {method : Method} {params : Value}
    {caller : Caller} (hlisted : method.asStr ∈ node.handler.methods) {call : Call}
    (hcall : call ∈ (node.handler.dispatch explain method params caller).2) :
    ∃ answer, node.written call = some answer ∧
      (node.handler.dispatch explain method params caller).1 = answer.toResult := by
  cases node with
  | control impl =>
    simp only [handler, Handler.dispatch, dispatchControl] at hcall ⊢
    cases hfn : method.controlFn with
    | error name =>
      rw [hfn] at hcall
      cases hcall
    | ok f =>
      simp only [hfn, dispatchArm] at hcall ⊢
      cases hd : decode f.request params with
      | none =>
        rw [hd] at hcall
        cases hcall
      | some d =>
        rw [hd] at hcall
        obtain rfl := List.mem_singleton.mp hcall
        rw [← Method.name_controlFn hfn] at hlisted
        obtain ⟨body, hbody⟩ :=
          impl.exists_body ControlFn.name_notMem ControlFn.name_injective hlisted
        refine ⟨body d caller, by simp [written, hbody], ?_⟩
        simp [Impl.control, Impl.call, hbody]
  | wallet impl =>
    simp only [handler, Handler.dispatch, dispatchWallet] at hcall ⊢
    cases hfn : (WalletMethod.fromStr method.asStr).walletFn with
    | error name =>
      rw [hfn] at hcall
      cases hcall
    | ok f =>
      simp only [hfn, dispatchArm] at hcall ⊢
      cases hd : decode f.request params with
      | none =>
        rw [hd] at hcall
        cases hcall
      | some d =>
        rw [hd] at hcall
        obtain rfl := List.mem_singleton.mp hcall
        rw [← WalletMethod.asStr_fromStr method.asStr, ← WalletMethod.name_walletFn hfn] at hlisted
        obtain ⟨body, hbody⟩ :=
          impl.exists_body WalletFn.name_notMem WalletFn.name_injective hlisted
        refine ⟨body d caller, by simp [written, hbody], ?_⟩
        simp [Impl.wallet, Impl.call, hbody]

end NodeImpl

/-- The protocols a service is built with. -/
def nodesOf (wallet : Option (Impl WalletFn WalletFn.name))
    (control : Option (Impl ControlFn ControlFn.name)) : List NodeImpl :=
  (wallet.map NodeImpl.wallet).toList ++ (control.map NodeImpl.control).toList

/-- **What is advertised is what is served.** For each protocol the service is built with, and for
no other, an info event is published, and its words are the names of the functions that the node has
written. A request for any other name is refused as not implemented, whoever asks, and changes and
calls nothing; and whatever function is called for a request, its body is the node's own, and the
response is what that body gave. -/
theorem advertised_is_served (explain : Explain) (wallet : Option (Impl WalletFn WalletFn.name))
    (control : Option (Impl ControlFn ControlFn.name)) (node : NodeImpl)
    (hnode : node ∈ nodesOf wallet control) (q : Request) (hhandler : q.handler = node.handler)
    (u : Usage) :
    (publishInfo wallet control = (nodesOf wallet control).map NodeImpl.info ∧
      node.info ∈ publishInfo wallet control ∧ wordsOf node.info.content = node.names) ∧
    (q.name ∉ node.names → q.handle explain u =
      { result := .error (.notImplemented q.name), usage := u, calls := [] }) ∧
    ∀ call ∈ (q.handle explain u).calls, call.isPrepare = false →
      ∃ answer, node.written call = some answer ∧
        (q.handle explain u).result = answer.toResult := by
  have hpublished : publishInfo wallet control = (nodesOf wallet control).map NodeImpl.info := by
    cases wallet <;> cases control <;> rfl
  refine ⟨⟨hpublished, ?_, node.wordsOf_info⟩, ?_, ?_⟩
  · rw [hpublished]
    exact List.mem_map_of_mem hnode
  · intro hname
    refine Request.handle_of_not_admitted ?_ u
    have himpl : q.handler.implements q.name = false := by
      rw [← node.methods_handler, ← hhandler] at hname
      simpa [Handler.implements] using hname
    have hasStr : q.method.asStr = q.name := rfl
    simp only [Request.vet, NostrLn.vet, hasStr, himpl]
    rfl
  · intro call hcall hprepare
    have hlisted := (Request.name_of_call hcall).2.1
    have hexit := q.exit explain u
    generalize q.handle explain u = out at hexit hcall
    cases hexit with
    | refused => cases hcall
    | limited => cases hcall
    | unprepared =>
      rw [List.mem_singleton.mp hcall] at hprepare
      cases hprepare
    | overQuota =>
      rw [List.mem_singleton.mp hcall] at hprepare
      cases hprepare
    | executed =>
      rcases List.mem_cons.mp hcall with rfl | hcall
      · cases hprepare
      · rw [Request.dispatched, hhandler] at hcall ⊢
        rw [hhandler] at hlisted
        exact node.dispatch_written hlisted hcall

namespace Sample

/-- A node that signs what it is asked to, for nothing. -/
def signer : Impl ControlFn ControlFn.name where
  block :=
    [.fn .signMessage fun _ _ => .ok (.ok .null), .prepare fun _ _ _ => .ok { costSats := 0 }]
  methods := ["sign_message"]
  once := by decide
  generated := by decide

/-- Somebody asks it for its channels. -/
def nosy : Request where
  handler := .control signer.control
  grants := Grants.new (key 1) [key 2]
  controller := key 3
  requestId := none
  method := .listChannels
  params := .object []
  now := 8

end Sample

open Sample in
/-- It says that it does not do that. -/
theorem unwritten_method_is_refused :
    nosy.handle (fun _ _ => "") Usage.new =
      { result := .error (.notImplemented "list_channels"), usage := Usage.new, calls := [] } :=
  (advertised_is_served (fun _ _ => "") none (some signer) (.control signer)
    (List.mem_singleton.mpr rfl) nosy rfl Usage.new).2.1 (by decide)

end NostrLn
