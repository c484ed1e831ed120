import NostrLn.Client.Response
import NostrLn.Lib.Encode
import NostrLn.Lib.JsonStruct
import NostrLn.Profile.Text

/-!
# The text of requests and responses

What `serde_json` writes for a request and for a response, and what it reads from a text. Both are
structs with a value inside, and the value is one container down: a request whose parameters are
nested to the reader's limit is written and cannot be read.
-/

namespace NostrLn

open Serde Json

/-- What stands in a field of an envelope. -/
inductive Part
  | text (s : String)
  | value (v : Value)
  | result (v : Option Value)
  | error (e : Option NncError)

/-- A reader of one of these. -/
def Part.reader {α : Type} (wrap : α → Part) (read : Reader α) : Reader Part := fun depth cs =>
  (read depth cs).map fun p => (wrap p.1, p.2)

/-- The fields of an envelope with a name in the field `tag`, and a value in the other. -/
def taggedField (floats : Floats) (tag name : String) : Reader Part :=
  if name = tag then Part.reader .text readText
  else Part.reader .value (readValue floats)

/-! ### Requests -/

/-- The fields of a request. -/
def requestField (floats : Floats) : String → Reader Part := taggedField floats "method"

/-- A request as it was found: without `params` they are null. -/
def requestOf (fields : List (String × Part)) : Option (Method × Value) :=
  match fields.lookup "method", fields.lookup "params" with
  | some (.text method), some (.value params) => some (.fromStr method, params)
  | some (.text method), none => some (.fromStr method, .null)
  | _, _ => none

/-- A request. -/
def readRequest (floats : Floats) : Reader (Method × Value) := fun depth cs =>
  (readStruct ["method", "params"] (requestField floats) depth cs).bind fun p =>
    (requestOf p.1).map fun request => (request, p.2)

/-- The text of a request, as the client of node control writes it. -/
def renderRequest (floats : Floats) (method : Method) (params : Value) : String :=
  String.ofList (writeStruct
    [("method", writeString method.asStr.toList), ("params", write floats params)])

/-- The text of a request, as the client of a wallet writes it: an object with two entries. -/
def renderWalletRequest (floats : Floats) (method : WalletMethod) (params : Value) : String :=
  String.ofList (write floats (.object [("method", .string method.asStr), ("params", params)]))

/-! ### Responses -/

/-- The wire name of an error code. -/
def ErrorCode.asStr : ErrorCode → String
  | .rateLimited => "RATE_LIMITED"
  | .notImplemented => "NOT_IMPLEMENTED"
  | .restricted => "RESTRICTED"
  | .unauthorized => "UNAUTHORIZED"
  | .quotaExceeded => "QUOTA_EXCEEDED"
  | .notFound => "NOT_FOUND"
  | .multipleMatches => "MULTIPLE_MATCHES"
  | .unsupportedPaymentType => "UNSUPPORTED_PAYMENT_TYPE"
  | .unsupportedPaymentInstruction => "UNSUPPORTED_PAYMENT_INSTRUCTION"
  | .feeLimitExceeded => "FEE_LIMIT_EXCEEDED"
  | .channelFailed => "CHANNEL_FAILED"
  | .connectionFailed => "CONNECTION_FAILED"
  | .insufficientBalance => "INSUFFICIENT_BALANCE"
  | .paymentFailed => "PAYMENT_FAILED"
  | .unsupportedEncryption => "UNSUPPORTED_ENCRYPTION"
  | .badRequest => "BAD_REQUEST"
  | .unsupportedNetwork => "UNSUPPORTED_NETWORK"
  | .internal => "INTERNAL"
  | .other => "OTHER"
  | .unknown name => name

/-- The fields of an error. -/
def errorField (floats : Floats) (name : String) : Reader Part :=
  if name = "code" then
    -- an `enum` with an untagged variant is read from what stands there, as it stands there
    Part.reader .value (readContent floats)
  else Part.reader .text readText

/-- An error as it was found. -/
def errorOf (fields : List (String × Part)) : Option NncError :=
  match fields.lookup "code", fields.lookup "message" with
  | some (.value raw), some (.text message) =>
    ((decodeEnum (ErrorCode.named.map Prod.fst) true raw).bind ErrorCode.ofDecoded).map fun code =>
      { code, message }
  | _, _ => none

/-- An error. -/
def readError (floats : Floats) : Reader NncError := fun depth cs =>
  (readStruct ["code", "message"] (errorField floats) depth cs).bind fun p =>
    (errorOf p.1).map fun e => (e, p.2)

/-- The fields of a response. -/
def responseField (floats : Floats) (name : String) : Reader Part :=
  if name = "result_type" then Part.reader .text readText
  else if name = "result" then Part.reader .result (readOption (readValue floats))
  else Part.reader .error (readOption (readError floats))

/-- A response as it was found. -/
def responseOf (fields : List (String × Part)) : Option Response :=
  match fields.lookup "result_type", fields.lookup "result", fields.lookup "error" with
  | some (.text ty), some (.result v), some (.error e) =>
    some { resultType := .fromStr ty, result := v, error := e }
  | some (.text ty), some (.result v), none =>
    some { resultType := .fromStr ty, result := v, error := none }
  | some (.text ty), none, some (.error e) =>
    some { resultType := .fromStr ty, result := none, error := e }
  | some (.text ty), none, none =>
    some { resultType := .fromStr ty, result := none, error := none }
  | _, _, _ => none

/-- A response. -/
def readResponse (floats : Floats) : Reader Response := fun depth cs =>
  (readStruct ["result_type", "result", "error"] (responseField floats) depth cs).bind fun p =>
    (responseOf p.1).map fun r => (r, p.2)

/-- The text of an error. -/
def NncError.write (e : NncError) : List Char :=
  writeStruct [("code", writeString e.code.asStr.toList), ("message", writeString e.message.toList)]

/-- The text of a response: what is absent is not written. -/
def renderResponse (floats : Floats) (r : Response) : String :=
  String.ofList (writeStruct (
    [("result_type", writeString r.resultType.asStr.toList)] ++
    (match r.result with
     | some v => [("result", Json.write floats v)]
     | none => []) ++
    (match r.error with
     | some e => [("error", e.write)]
     | none => [])))

/-! ### Requests are read back -/

/-- What the reader of such an envelope makes of an entry. -/
def taggedMember (floats : Floats) (tag : String) (depth : ℕ) (e : String × Value) :
    Member Part where
  name := e.1
  text := Json.write floats e.2
  read :=
    if e.1 = tag then
      match e.2 with
      | .string s => some (.text s)
      | _ => none
    else if nesting e.2 < depth then some (.value (normalize e.2)) else none

lemma taggedMember_faithful {floats : Floats} {names : List String} (tag : String) {depth : ℕ}
    (hdepth : 0 < depth) {e : String × Value} (he : Kept floats e.2) :
    (taggedMember floats tag depth e).Faithful floats names (taggedField floats tag) depth := by
  obtain ⟨name, v⟩ := e
  simp only [Member.Faithful, taggedMember]
  by_cases hname : name ∈ names
  · rw [if_pos hname]
    intro rest hrest
    by_cases htag : name = tag
    · rw [taggedField, if_pos htag, if_pos htag, Part.reader, readText_write he]
      cases v <;> rfl
    · rw [taggedField, if_neg htag, if_neg htag, Part.reader,
        readValue_write he hdepth hrest]
      by_cases hn : nesting v < depth
      · rw [if_pos hn, if_pos hn]
        rfl
      · rw [if_neg hn, if_neg hn]
        rfl
  · rw [if_neg hname]
    exact ⟨v, he, rfl⟩

/-- What is read as such an envelope from any object. -/
lemma readTagged_object {floats : Floats} (names : List String) (tag : String)
    {es : List (String × Value)} (hes : ∀ e ∈ es, Kept floats e.2) :
    readStruct names (taggedField floats tag) maxDepth (Json.write floats (.object es)) =
      (collect names [] (es.map (taggedMember floats tag 127))).map fun fields => (fields, []) := by
  have hfaithful : ∀ m ∈ es.map (taggedMember floats tag 127),
      m.Faithful floats names (taggedField floats tag) (maxDepth - 1) := by
    intro m hm
    obtain ⟨e, he, rfl⟩ := List.mem_map.mp hm
    exact taggedMember_faithful tag (by decide) (hes e he)
  have hwrite : (es.map (taggedMember floats tag 127)).map Member.written =
      es.map fun e => (e.1, Json.write floats e.2) := by
    rw [List.map_map]
    rfl
  have hread := readStruct_writeStruct hfaithful []
  rw [hwrite, List.append_nil, if_neg (by decide)] at hread
  rw [write_object, hread]

/-- What is read as a request from any object. -/
lemma parseRequest_object {floats : Floats} {es : List (String × Value)}
    (hes : ∀ e ∈ es, Kept floats e.2) :
    parseText (readRequest floats) (String.ofList (Json.write floats (.object es))) =
      (collect ["method", "params"] [] (es.map (taggedMember floats "method" 127))).bind
        requestOf := by
  refine parseText_ofList ?_
  rw [readRequest, requestField, readTagged_object ["method", "params"] "method" hes]
  cases collect ["method", "params"] [] (es.map (taggedMember floats "method" 127)) with
  | none => rfl
  | some fields => cases requestOf fields <;> rfl

lemma renderRequest_eq (floats : Floats) (method : Method) (params : Value) :
    renderRequest floats method params = String.ofList (Json.write floats
      (.object [("method", .string method.asStr), ("params", params)])) := by
  rw [write_object]
  rfl

/-- The two clients write the same text. -/
lemma renderWalletRequest_eq (floats : Floats) (method : WalletMethod) (params : Value) :
    renderWalletRequest floats method params =
      renderRequest floats (.fromStr method.asStr) params := by
  rw [renderRequest_eq, Method.asStr_fromStr, renderWalletRequest]

/-- Reading the text of a request gives its parameters, and its method by its name, if the
parameters are not nested to the limit, and nothing otherwise. -/
lemma parseRequest_render {floats : Floats} (method : Method) {params : Value}
    (hkept : Kept floats params) (htidy : Tidy params) :
    parseText (readRequest floats) (renderRequest floats method params) =
      if nesting params < 127 then some (.fromStr method.asStr, params) else none := by
  rw [renderRequest_eq, parseRequest_object (by
    intro e he
    simp only [List.mem_cons, List.not_mem_nil, or_false] at he
    rcases he with rfl | rfl
    · exact .string _
    · exact hkept)]
  by_cases hn : nesting params < 127
  · simp [collect, taggedMember, hn, requestOf, List.lookup_cons, Tidy.normalize params htidy]
  · simp [collect, taggedMember, hn]

/-- **Further entries are passed over.** What is read as a request from an object depends on its
entries `method` and `params` only, whatever else it holds, wherever that stands and however deep it
is nested. -/
theorem request_ignores_further_entries (floats : Floats) (es : List (String × Value))
    (hkept : ∀ e ∈ es, Kept floats e.2) :
    parseText (readRequest floats) (String.ofList (Json.write floats (.object es))) =
      parseText (readRequest floats) (String.ofList (Json.write floats
        (.object (es.filter fun e => e.1 ∈ ["method", "params"])))) := by
  have hfilter : (es.filter fun e => e.1 ∈ ["method", "params"]).map
      (taggedMember floats "method" 127) =
      (es.map (taggedMember floats "method" 127)).filter
        fun m => m.name ∈ ["method", "params"] := by
    rw [List.filter_map]
    rfl
  rw [parseRequest_object hkept,
    parseRequest_object fun e he => hkept e (List.mem_filter.mp he).1, hfilter, collect_filter]

namespace Sample

/-- A request that carries an id of its own. -/
def numbered : List (String × Value) :=
  [("id", .array [.string "7"]), ("method", .string "get_info"), ("params", .object [])]

end Sample

open Sample in
/-- The id makes no difference. -/
theorem numbered_request_is_read :
    parseText (readRequest noFloats) (String.ofList (Json.write noFloats (.object numbered))) =
      parseText (readRequest noFloats) (String.ofList (Json.write noFloats
        (.object (numbered.filter fun e => e.1 ∈ ["method", "params"])))) := by
  refine request_ignores_further_entries noFloats numbered ?_
  simp only [numbered, List.forall_mem_cons, List.not_mem_nil, false_imp_iff, implies_true,
    and_true]
  exact ⟨.array (by simpa using Kept.string "7"), .string _, .object (by simp)⟩

/-! ### Responses are read back -/

/-- An error code as it is read back: one that was made up under a known name is known. -/
def ErrorCode.reread : ErrorCode → ErrorCode
  | .unknown name => (ErrorCode.named.lookup name).getD (.unknown name)
  | code => code

/-- An error as it is read back. -/
def NncError.reread (e : NncError) : NncError := { e with code := e.code.reread }

/-- A response as it is read back: a result that is null is as good as none. -/
def Response.reread (r : Response) : Response where
  resultType := .fromStr r.resultType.asStr
  result := r.result.filter fun v => !v.isNull
  error := r.error.map NncError.reread

lemma isSome_lookup_iff {α : Type} {name : String} {l : List (String × α)} :
    (l.lookup name).isSome = true ↔ name ∈ l.map Prod.fst := by
  rw [List.lookup_isSome_iff, List.mem_map]
  constructor
  · rintro ⟨e, he, hname⟩
    exact ⟨e, he, (eq_of_beq hname).symm⟩
  · rintro ⟨e, he, rfl⟩
    exact ⟨e, he, beq_self_eq_true _⟩

lemma decodeEnum_asStr (code : ErrorCode) :
    (decodeEnum (ErrorCode.named.map Prod.fst) true (.string code.asStr)).bind
      ErrorCode.ofDecoded = some code.reread := by
  cases code with
  | unknown name =>
    rw [ErrorCode.asStr, ErrorCode.reread, decodeEnum_string]
    by_cases hname : name ∈ ErrorCode.named.map Prod.fst
    · obtain ⟨code, hcode⟩ := Option.isSome_iff_exists.mp (isSome_lookup_iff.mpr hname)
      rw [if_pos hname, Option.bind_some, ErrorCode.ofDecoded, hcode]
      rfl
    · have hnone : ErrorCode.named.lookup name = none := by
        rw [← Option.not_isSome_iff_eq_none]
        exact mt isSome_lookup_iff.mp hname
      rw [if_neg hname, if_pos rfl, Option.bind_some, ErrorCode.ofDecoded, hnone]
      rfl
  | _ => rfl

/-- What the reader of an error makes of its entries. -/
def errorMembers (e : NncError) : List (Member Part) :=
  [{ name := "code", text := writeString e.code.asStr.toList
     read := some (.value (.string e.code.asStr)) },
   { name := "message", text := writeString e.message.toList, read := some (.text e.message) }]

/-- An error is read back. -/
lemma readError_write (floats : Floats) (e : NncError) {depth : ℕ} (hdepth : 2 ≤ depth)
    (rest : List Char) :
    readError floats depth (e.write ++ rest) =
      some (e.reread, rest) := by
  have hfaithful : ∀ m ∈ errorMembers e,
      m.Faithful floats ["code", "message"] (errorField floats) (depth - 1) := by
    intro m hm
    simp only [errorMembers, List.mem_cons, List.not_mem_nil, or_false] at hm
    rcases hm with rfl | rfl
    · rw [Member.Faithful, if_pos (by simp)]
      intro rest hrest
      have hkept : Kept floats (.string e.code.asStr) := .string _
      have hnesting : nesting (.string e.code.asStr) = 0 := rfl
      have hread := readContent_write hkept (show 0 < depth - 1 by omega) hrest
      rw [hnesting, if_pos (by omega), Json.write] at hread
      rw [errorField, if_pos rfl, Part.reader, hread]
      rfl
    · rw [Member.Faithful, if_pos (by simp)]
      intro rest _
      rw [errorField, if_neg (by simp), Part.reader, readText_writeString]
      rfl
  have hread := readStruct_writeStruct hfaithful rest
  rw [if_neg (by omega)] at hread
  have hwrite : e.write = writeStruct ((errorMembers e).map Member.written) := rfl
  have hfound : collect ["code", "message"] [] (errorMembers e) =
      some [("code", .value (.string e.code.asStr)), ("message", .text e.message)] := by
    simp [collect, errorMembers]
  have herror : errorOf [("code", .value (.string e.code.asStr)), ("message", .text e.message)] =
      some e.reread := by
    rw [errorOf]
    simp [List.lookup_cons, decodeEnum_asStr, NncError.reread]
  rw [readError, hwrite, hread, hfound]
  simp [herror]

/-- Only null begins as null does. -/
lemma head_write_ne {floats : Floats} {v : Value} (hv : Kept floats v) (hnull : v.isNull = false)
    (rest : List Char) : (skipSpace (Json.write floats v ++ rest)).head? ≠ some 'n' := by
  rw [hv.opens.skipSpace]
  cases hv with
  | null => cases hnull
  | bool b => cases b <;> simp [Json.write]
  | number hn =>
    obtain ⟨c, cs, htext, hc⟩ := exists_writeNumber hn
    rw [Json.write, htext]
    rcases hc with rfl | hc
    · simp
    · intro h
      obtain rfl : c = 'n' := by simpa using h
      exact absurd hc (by decide)
  | string s => simp [Json.write, writeString]
  | array _ => simp [Json.write]
  | object _ => simp [Json.write]

/-- A result is read back, but for null. -/
lemma readOption_write {floats : Floats} {v : Value} (hv : Kept floats v) (ht : Tidy v) {depth : ℕ}
    (hdepth : 0 < depth) {rest : List Char} (hrest : Ends rest) :
    readOption (readValue floats) depth (Json.write floats v ++ rest) =
      if nesting v < depth then some ((some v).filter fun v => !v.isNull, rest) else none := by
  cases hnull : v.isNull with
  | true =>
    cases v with
    | null =>
      have hnone : (some Value.null).filter (fun v => !v.isNull) = none := rfl
      simp [readOption, Json.write, skipSpace, isSpace, readIdent, nesting, hdepth, hnone]
    | _ => cases hnull
  | false =>
    rw [readOption, if_neg (head_write_ne hv hnull rest), readValue_write hv hdepth hrest,
      Tidy.normalize v ht]
    by_cases hn : nesting v < depth
    · rw [if_pos hn, if_pos hn]
      simp [Option.filter, hnull]
    · rw [if_neg hn, if_neg hn]
      rfl

/-- What the reader of a response makes of its entries. -/
def responseMembers (floats : Floats) (r : Response) : List (Member Part) :=
  [{ name := "result_type", text := writeString r.resultType.asStr.toList
     read := some (.text r.resultType.asStr) }] ++
  (match r.result with
   | some v => [{ name := "result", text := Json.write floats v
                  read := if nesting v < 127 then
                      some (.result ((some v).filter fun v => !v.isNull))
                    else none }]
   | none => []) ++
  (match r.error with
   | some e => [{ name := "error", text := e.write
                  read := some (.error (some e.reread)) }]
   | none => [])

lemma responseMembers_faithful {floats : Floats} {r : Response}
    (hkept : ∀ v ∈ r.result, Kept floats v) (htidy : ∀ v ∈ r.result, Tidy v) :
    ∀ m ∈ responseMembers floats r, m.Faithful floats ["result_type", "result", "error"]
      (responseField floats) 127 := by
  have htext : Member.Faithful floats ["result_type", "result", "error"] (responseField floats) 127
      { name := "result_type", text := writeString r.resultType.asStr.toList
        read := some (.text r.resultType.asStr) } := by
    rw [Member.Faithful, if_pos (by simp)]
    intro rest _
    rw [responseField, if_pos rfl, Part.reader, readText_writeString]
    rfl
  have hresult : ∀ v, Kept floats v → Tidy v →
      Member.Faithful floats ["result_type", "result", "error"] (responseField floats) 127
      { name := "result", text := Json.write floats v
        read := if nesting v < 127 then some (.result ((some v).filter fun v => !v.isNull))
          else none } := by
    intro v hv ht
    rw [Member.Faithful, if_pos (by simp)]
    intro rest hrest
    rw [responseField, if_neg (by simp), if_pos rfl, Part.reader,
      readOption_write hv ht (by decide) hrest]
    by_cases hn : nesting v < 127
    · simp [hn]
    · simp [hn]
  have herror : ∀ e : NncError, Member.Faithful floats ["result_type", "result", "error"]
      (responseField floats) 127
      { name := "error", text := e.write
        read := some (.error (some e.reread)) } := by
    intro e
    rw [Member.Faithful, if_pos (by simp)]
    intro rest hrest
    have hhead : (skipSpace (e.write ++ rest)).head? ≠ some 'n' := by
      simp [NncError.write, writeStruct, skipSpace, isSpace]
    rw [responseField, if_neg (by simp), if_neg (by simp), Part.reader, readOption, if_neg hhead,
      readError_write floats e (by decide)]
    rfl
  intro m hm
  simp only [responseMembers, List.mem_append, List.mem_singleton] at hm
  rcases hm with (rfl | hm) | hm
  · exact htext
  · cases hv : r.result with
    | none => simp [hv] at hm
    | some v =>
      rw [hv] at hm
      obtain rfl := List.mem_singleton.mp hm
      exact hresult v (hkept v hv) (htidy v hv)
  · cases he : r.error with
    | none => simp [he] at hm
    | some e =>
      rw [he] at hm
      obtain rfl := List.mem_singleton.mp hm
      exact herror e

/-- Reading the text of a response gives it, with a result of null as none and an error code by its
name, if the result is not nested to the limit, and nothing otherwise. -/
lemma parseResponse_render {floats : Floats} {r : Response}
    (hkept : ∀ v ∈ r.result, Kept floats v) (htidy : ∀ v ∈ r.result, Tidy v) :
    parseText (readResponse floats) (renderResponse floats r) =
      if (r.result.map nesting).getD 0 < 127 then some r.reread else none := by
  have hfaithful : ∀ m ∈ responseMembers floats r,
      m.Faithful floats ["result_type", "result", "error"] (responseField floats) (maxDepth - 1) :=
    responseMembers_faithful hkept htidy
  have hread := readStruct_writeStruct hfaithful []
  rw [if_neg (by decide), List.append_nil] at hread
  have hwrite : renderResponse floats r =
      String.ofList (writeStruct ((responseMembers floats r).map Member.written)) := by
    rw [renderResponse, responseMembers]
    cases r.result <;> cases r.error <;> rfl
  have hfound : (collect ["result_type", "result", "error"] []
      (responseMembers floats r)).bind responseOf =
        if (r.result.map nesting).getD 0 < 127 then some r.reread else none := by
    obtain ⟨ty, result, error⟩ := r
    cases result with
    | none =>
      cases error <;> simp [responseMembers, collect, responseOf, List.lookup_cons, Response.reread]
    | some v =>
      by_cases hn : nesting v < 127
      · cases error <;>
          simp [responseMembers, collect, responseOf, List.lookup_cons, Response.reread, hn]
      · cases error <;> simp [responseMembers, collect, hn]
  rw [hwrite, ← hfound]
  refine parseText_ofList ?_
  rw [readResponse, hread]
  cases collect ["result_type", "result", "error"] [] (responseMembers floats r) with
  | none => rfl
  | some fields => cases responseOf fields <;> rfl

/-! ### Responses as values -/

section

variable {r : Response}

/-- An error, as a value. -/
def NncError.toValue (e : NncError) : Value :=
  .object [("code", .string e.code.asStr), ("message", .string e.message)]

/-- The entries of a response. -/
def Response.entries (r : Response) : List (String × Value) :=
  [("result_type", .string r.resultType.asStr)] ++ (r.result.map fun v => ("result", v)).toList ++
    (r.error.map fun e => ("error", e.toValue)).toList

lemma renderResponse_eq (floats : Floats) (r : Response) :
    renderResponse floats r = String.ofList (Json.write floats (.object r.entries)) := by
  have herror : ∀ e : NncError, Json.write floats e.toValue = e.write := by
    intro e
    rw [NncError.toValue, write_object]
    rfl
  rw [write_object, renderResponse, Response.entries]
  cases r.result <;> cases r.error <;> simp [Json.write, herror]

lemma NncError.kept_toValue (floats : Floats) (e : NncError) : Kept floats e.toValue := by
  refine .object ?_
  simp only [List.forall_mem_cons, List.not_mem_nil, false_imp_iff, implies_true, and_true]
  exact ⟨.string _, .string _⟩

lemma NncError.tidy_toValue (e : NncError) : Tidy e.toValue := by
  refine .object ?_ ?_
  · simp only [List.forall_mem_cons, List.not_mem_nil, false_imp_iff, implies_true, and_true]
    exact ⟨.string _, .string _⟩
  · have hlt : "code" < "message" := by decide
    simpa using hlt

/-- An error that was written is read. -/
lemma NncError.fromValue_toValue (explain : Explain) (e : NncError) :
    NncError.fromValue explain e.toValue = .ok e.reread := by
  obtain ⟨d, hd, hcode⟩ := Option.bind_eq_some_iff.mp (decodeEnum_asStr e.code)
  have hmessage : entry "message" [("code", .string e.code.asStr), ("message", .string e.message)] =
      some (.string e.message) := by
    rw [entry_cons_of_ne (by decide), entry_cons_self]
  have hdecode : decode NncError.shape e.toValue =
      some (.struct [("code", d), ("message", .string e.message)]) := by
    rw [NncError.shape, record, NncError.toValue, decode_object]
    simp only [required, List.foldr_cons, List.foldr_nil]
    rw [decodeMap_of_entry (entry_cons_self _ _ _), decode_enum, hd,
      decodeMap_of_entry hmessage, decode_string]
    rfl
  simp only [NncError.fromValue, hdecode, hcode]
  rfl

lemma Response.forall_entries {p : Value → Prop} (hstring : ∀ s, p (.string s))
    (herror : ∀ e : NncError, p e.toValue) (hresult : ∀ v ∈ r.result, p v) :
    ∀ entry ∈ r.entries, p entry.2 := by
  intro entry hentry
  simp only [Response.entries, List.mem_append, List.mem_singleton, Option.mem_toList,
    Option.map_eq_some_iff] at hentry
  rcases hentry with (rfl | ⟨v, hv, rfl⟩) | ⟨e, _, rfl⟩
  · exact hstring _
  · exact hresult v hv
  · exact herror e

lemma Response.nodup_entries (r : Response) : (r.entries.map Prod.fst).Nodup := by
  rw [Response.entries]
  cases r.result <;> cases r.error <;> simp

lemma Response.nesting_entries (r : Response) :
    nesting (.object r.entries) < maxDepth ↔ (r.result.map nesting).getD 0 < 127 := by
  rw [Response.entries, maxDepth]
  cases r.result with
  | none => cases r.error <;> simp [nesting, nestingEntries, NncError.toValue]
  | some v =>
    cases r.error with
    | none =>
      simp only [nesting, nestingEntries, Option.map_some, Option.map_none, Option.toList_some,
        Option.toList_none, List.singleton_append, List.append_nil, Option.getD_some]
      omega
    | some e =>
      simp only [nesting, nestingEntries, NncError.toValue, Option.map_some, Option.toList_some,
        List.nil_append, List.cons_append, Option.getD_some]
      omega

/-- What a wallet's client finds in the text of a response. -/
lemma parseValue_render {floats : Floats} (hkept : ∀ v ∈ r.result, Kept floats v)
    (htidy : ∀ v ∈ r.result, Tidy v) :
    parseText (readValue floats) (renderResponse floats r) =
      if (r.result.map nesting).getD 0 < 127 then some (.object (sortEntries r.entries))
      else none := by
  have hentries := Response.forall_entries (p := Kept floats) .string (NncError.kept_toValue floats)
    hkept
  have hsorted := Tidy.normalizeEntries r.entries
    (Response.forall_entries .string NncError.tidy_toValue htidy)
  have hends : Ends [] := by simp [Ends]
  have hread := readValue_write (.object hentries) (show 0 < maxDepth by decide) hends
  rw [List.append_nil, Json.normalize, hsorted] at hread
  rw [renderResponse_eq]
  refine parseText_ofList ?_
  rw [hread]
  by_cases hn : (r.result.map nesting).getD 0 < 127
  · rw [if_pos hn, if_pos (r.nesting_entries.mpr hn)]
    rfl
  · rw [if_neg hn, if_neg (mt r.nesting_entries.mp hn)]
    rfl

end

end NostrLn
