import NostrLn.Service.Names
import NostrLn.Wire.Envelope

/-!
# Typed parameters, from the client to the function

A typed method of a client makes JSON of its request, puts it in an envelope and writes that as
text. The service reads the text, validates the parameters, and decodes them again to call the
function behind the method. The types of node control pass through all of it unchanged. A wallet's
requests hold JSON of their own: a value of null that was given is none when it arrives.
-/

namespace NostrLn

open Serde Json

/-! ### The types of the requests -/

lemma ControlFn.wellFormed_request (fn : ControlFn) : fn.request.wellFormed = true := by
  cases fn <;> decide

lemma ControlFn.plain_request (fn : ControlFn) : fn.request.plain = true := by
  cases fn <;> decide

lemma ControlFn.depth_request (fn : ControlFn) (m : ℕ) : fn.request.depth m ≤ 1 := by
  cases fn <;> exact le_rfl

lemma WalletFn.wellFormed_request (fn : WalletFn) : fn.request.wellFormed = true := by
  cases fn <;> decide

lemma WalletFn.depth_request (fn : WalletFn) : fn.request.depth 125 ≤ 126 := by
  cases fn <;> decide

/-- What the requests of node control are written as can be read, and decodes to what it was. -/
lemma ControlFn.encoded {fn : ControlFn} {d : Decoded} {params : Value}
    (h : encode fn.request d = some params) (floats : Floats) :
    Kept floats params ∧ Tidy params ∧ nesting params < 127 ∧
      decode fn.request params = some d := by
  have hplain := within_of_plain fn.plain_request h
  refine ⟨closed_encode (kept_closed floats) (hplain _) h, closed_encode tidy_closed (hplain _) h,
    ?_, ?_⟩
  · have hle := nesting_encode_le (hplain (nesting · ≤ 0)) h
    have hdepth := fn.depth_request 0
    omega
  · rw [decode_encode fn.wellFormed_request h, reread_eq_self fn.plain_request h]

/-! ### What the service makes of them -/

section

variable {explain : Explain} {params : Value} {caller : Caller} {d : Decoded}

/-- Parameters that decode are let through, and the function is called with what they decode to. -/
lemma ControlFn.reached {fn : ControlFn} (cs : ControlService)
    (h : decode fn.request params = some d) :
    validate explain (.control cs) (.fromStr fn.name) params = .ok () ∧
      (Handler.control cs).dispatch explain (.fromStr fn.name) params caller =
        ((cs.call fn d caller).toResult, [.control fn d caller]) := by
  have hfn := fn.controlFn_fromStr_name
  constructor
  · rw [validate_eq_ok_iff]
    refine ⟨fn.request, ?_, ?_⟩
    · rw [Handler.armType, hfn]
      rfl
    · rw [h]
      rfl
  · rw [Handler.dispatch, dispatchControl, hfn]
    simp only [dispatchArm, h]

lemma WalletFn.reached {fn : WalletFn} (ws : WalletService)
    (h : decode fn.request params = some d) :
    validate explain (.wallet ws) (.fromStr fn.name) params = .ok () ∧
      (Handler.wallet ws).dispatch explain (.fromStr fn.name) params caller =
        ((ws.call fn d caller).toResult, [.wallet fn d caller]) := by
  have hfn : (WalletMethod.fromStr (Method.fromStr fn.name).asStr).walletFn = .ok fn := by
    rw [Method.asStr_fromStr, fn.walletFn_fromStr_name]
  constructor
  · rw [validate_eq_ok_iff]
    refine ⟨fn.request, ?_, ?_⟩
    · rw [Handler.armType, hfn]
      rfl
    · rw [h]
      rfl
  · rw [Handler.dispatch, dispatchWallet, hfn]
    simp only [dispatchArm, h]

end

/-- **Typed requests of node control arrive as they were sent.** Whatever the method and whatever
its parameters, the text the client writes is read as a request for that method; its parameters are
never refused, and the function behind it is called with the very request the client had. -/
theorem typed_control_request_arrives (floats : Floats) (explain : Explain) (cs : ControlService)
    (caller : Caller) (fn : ControlFn) (d : Decoded) (params : Value)
    (hparams : encode fn.request d = some params) :
    parseText (readRequest floats) (renderRequest floats (.fromStr fn.name) params) =
      some (.fromStr fn.name, params) ∧
    validate explain (.control cs) (.fromStr fn.name) params = .ok () ∧
    (Handler.control cs).dispatch explain (.fromStr fn.name) params caller =
      ((cs.call fn d caller).toResult, [.control fn d caller]) := by
  obtain ⟨hkept, htidy, hnesting, hdecode⟩ := ControlFn.encoded hparams floats
  refine ⟨?_, ControlFn.reached cs hdecode⟩
  rw [parseRequest_render _ hkept htidy, if_pos hnesting, Method.asStr_fromStr]

namespace Sample

/-- Somebody asks. -/
def asker : Caller := { controller := key 3, requestId := none }

/-- A node that connects to every peer it is told to. -/
def sociable : ControlService where
  methods := ["connect_peer"]
  prepare _ _ _ := .ok { costSats := 0 }
  call _ _ _ := .ok (.ok (.object []))

/-- A request to connect to a peer. -/
def connectPeer : Decoded :=
  .struct [("pubkey", .string "02ab"), ("host", .some (.string "node.example:9735"))]

/-- Its parameters. -/
def connectParams : Value :=
  .object (sortEntries [("pubkey", .string "02ab"), ("host", .string "node.example:9735")])

/-- A wallet that pays every invoice. -/
def paying : WalletService where
  methods := ["pay_invoice"]
  prepare _ _ _ := .ok { costSats := 0 }
  call _ _ _ := .ok (.ok (.object []))

/-- A request to pay an invoice, with a note. -/
def payInvoice : Decoded :=
  .struct [("invoice", .string "lnbc1"), ("amount", .none),
    ("metadata", .some (.value (.array [.string "thanks"])))]

/-- Its parameters. -/
def payParams : Value :=
  .object (sortEntries [("invoice", .string "lnbc1"), ("metadata", .array [.string "thanks"])])

end Sample

open Sample in
/-- A request to connect to a peer arrives. -/
theorem connect_peer_arrives :
    parseText (readRequest noFloats)
        (renderRequest noFloats (.fromStr ControlFn.connectPeer.name) connectParams) =
      some (.fromStr ControlFn.connectPeer.name, connectParams) ∧
    validate (fun _ _ => "") (.control sociable) (.fromStr ControlFn.connectPeer.name)
      connectParams = .ok () ∧
    (Handler.control sociable).dispatch (fun _ _ => "") (.fromStr ControlFn.connectPeer.name)
        connectParams asker =
      ((sociable.call .connectPeer connectPeer asker).toResult,
        [.control .connectPeer connectPeer asker]) :=
  typed_control_request_arrives noFloats (fun _ _ => "") sociable asker .connectPeer connectPeer
    connectParams rfl

namespace Sample

lemma payInvoice_within {p : Value → Prop} (h : p (.array [.string "thanks"])) :
    payInvoice.Within p := by
  refine .struct ?_
  simp only [List.forall_mem_cons, List.not_mem_nil, false_imp_iff, implies_true, and_true]
  exact ⟨.string _, .none, .some (.value h)⟩

end Sample

end NostrLn
