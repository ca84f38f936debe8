import WovenTeam.Json

/-!
# Requests and replies of the daemon

A handler finds its body behind the first empty line of the request and answers with one call of
`wtHttpSendText`.
-/

namespace WovenTeam

open CText

/-- The text behind the headers. -/
def requestBody (request : Bytes) : Option Bytes :=
  (strstr (bytes "\r\n\r\n") request).map (·.drop 4)

/-- The arguments of `wtHttpSendText`. -/
structure HttpReply where
  status : Nat
  reason : String
  contentType : String
  body : Bytes
  deriving DecidableEq, Repr

/-- An error object with the text `error`. -/
def errorReply (status : Nat) (reason error : String) : HttpReply where
  status := status
  reason := reason
  contentType := "application/json"
  body := bytes "\x7b\"ok\":false,\"error\":\"" ++ bytes error ++ bytes "\"\x7d\n"

def badRequest (error : String) : HttpReply := errorReply 400 "Bad Request" error

/-- `{"ok":false}`, for a request without a body. -/
def noBody : HttpReply where
  status := 400
  reason := "Bad Request"
  contentType := "application/json"
  body := bytes "\x7b\"ok\":false\x7d\n"

def appendFailed : HttpReply := errorReply 500 "Internal Server Error" "append failed"

def HttpReply.accepted (reply : HttpReply) : Prop := reply.status = 200

instance (reply : HttpReply) : Decidable reply.accepted := by
  unfold HttpReply.accepted
  infer_instance

def okReply (body : Bytes) : HttpReply where
  status := 200
  reason := "OK"
  contentType := "application/json; charset=utf-8"
  body := body

/-- A text in a reply's own JSON. -/
def escapedOr (text : Bytes) (size : Nat) : Bytes :=
  match wtJsonEscape text size with
  | some escaped => escaped.text
  | none => []

end WovenTeam
