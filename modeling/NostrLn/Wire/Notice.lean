import NostrLn.Service.Notifier
import NostrLn.Wire.Envelope

/-!
# The text of notifications

A notification of either protocol is a struct with its type and its payload. The payload is one
container down, as the parameters of a request are, and it may not be left out.
-/

namespace NostrLn

open Serde Json

/-- A notification as it was found: neither field has a default. -/
def noticeOf (fields : List (String × Part)) : Option (String × Value) :=
  match fields.lookup "notification_type", fields.lookup "notification" with
  | some (.text ty), some (.value payload) => some (ty, payload)
  | _, _ => none

/-- The type and the payload of a notification. -/
def readNotice (floats : Floats) : Reader (String × Value) := fun depth cs =>
  (readStruct ["notification_type", "notification"] (taggedField floats "notification_type")
    depth cs).bind fun p => (noticeOf p.1).map fun n => (n, p.2)

/-- A notification of a node, from its text. -/
def parseNotification (floats : Floats) (text : String) : Option Notification :=
  (parseText (readNotice floats) text).map fun n =>
    { notificationType := .fromStr n.1, notification := n.2 }

/-- A notification of a wallet, from its text. -/
def parseWalletNotification (floats : Floats) (text : String) : Option WalletNotification :=
  (parseText (readNotice floats) text).map fun n =>
    { notificationType := .fromStr n.1, notification := n.2 }

/-- The text of a type and a payload. -/
def renderNotice (floats : Floats) (ty : String) (payload : Value) : String :=
  String.ofList (writeStruct
    [("notification_type", writeString ty.toList), ("notification", Json.write floats payload)])

/-- The text of a notification of a node. -/
def renderNotification (floats : Floats) (n : Notification) : String :=
  renderNotice floats n.notificationType.asStr n.notification

/-- The text of a notification of a wallet. -/
def renderWalletNotification (floats : Floats) (n : WalletNotification) : String :=
  renderNotice floats n.notificationType.asStr n.notification

/-! ### Notifications are read back -/

variable {floats : Floats}

/-- Reading the text of a notification gives its type and its payload, if that is not nested to the
limit, and nothing otherwise. -/
lemma parseNotice_render (ty : String) {payload : Value} (hkept : Kept floats payload)
    (htidy : Tidy payload) :
    parseText (readNotice floats) (renderNotice floats ty payload) =
      if nesting payload < 127 then some (ty, payload) else none := by
  have hwrite : renderNotice floats ty payload = String.ofList (Json.write floats
      (.object [("notification_type", .string ty), ("notification", payload)])) := by
    rw [write_object]
    rfl
  have hentries : ∀ e ∈ [("notification_type", Value.string ty), ("notification", payload)],
      Kept floats e.2 := by
    intro e he
    simp only [List.mem_cons, List.not_mem_nil, or_false] at he
    rcases he with rfl | rfl
    · exact .string _
    · exact hkept
  rw [hwrite]
  refine parseText_ofList ?_
  rw [readNotice, readTagged_object _ _ hentries]
  by_cases hn : nesting payload < 127
  · simp [collect, taggedMember, hn, noticeOf, List.lookup_cons, Tidy.normalize payload htidy]
  · simp [collect, taggedMember, hn]

lemma parseNotification_render {n : Notification} (hkept : Kept floats n.notification)
    (htidy : Tidy n.notification) :
    parseNotification floats (renderNotification floats n) =
      if nesting n.notification < 127 then some n.reread else none := by
  rw [parseNotification, renderNotification, parseNotice_render _ hkept htidy]
  split_ifs <;> rfl

lemma parseWalletNotification_render {n : WalletNotification} (hkept : Kept floats n.notification)
    (htidy : Tidy n.notification) :
    parseWalletNotification floats (renderWalletNotification floats n) =
      if nesting n.notification < 127 then some n.reread else none := by
  rw [parseWalletNotification, renderWalletNotification, parseNotice_render _ hkept htidy]
  split_ifs <;> rfl

end NostrLn
