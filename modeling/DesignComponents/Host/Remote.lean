import DesignComponents.Host.Basic
import DesignComponents.Text.Encoding

/-!
Files of designs and their variables, fetched over the network.
-/

namespace DesignComponents

inductive FetchError
  | connection (reason : String)
  | status (code : Int) (reason url : String)
  | unreadable (error : Json.ReadError)

namespace FetchError

def message : FetchError → String
  | .connection reason => reason
  | .status code reason url =>
    toString code ++ (if code < 500 then " Client Error: " else " Server Error: ") ++ reason ++
      " for url: " ++ url
  | .unreadable e => e.message

def report (fileKey : String) : FetchError → String
  | .status 403 _ _ => "❌ Figma API 403：Token 無效或已過期，請重新產生 FIGMA_TOKEN。"
  | .status 404 _ _ =>
    "❌ Figma API 404：找不到檔案 '" ++ fileKey ++ "'，請確認 file key 是否正確。"
  | e => "❌ Figma API 錯誤：" ++ e.message

end FetchError

namespace Remote

def baseUrl : String := "https://api.figma.com/v1"

def timeout : Nat := 60

def fileUrl (fileKey : String) : String := baseUrl ++ "/files/" ++ fileKey

def variablesUrl (fileKey : String) : String := fileUrl fileKey ++ "/variables/local"

/-- Statuses from 400 to 599 are failures, and so is what is no data. A number that is too long is
a fault of the run. -/
def readReply (url : String) : Reply → Except Fault (Except FetchError Json)
  | .unreachable reason => .ok (.error (.connection reason))
  | .response status reason body =>
    if 400 ≤ status ∧ status < 600 then .ok (.error (.status status reason url))
    else
      match Json.read (Encoding.intended body) with
      | .ok v => .ok (.ok v)
      | .error e => if e.isMalformed then .ok (.error (.unreadable e)) else .error (.unreadable e)

def fetch (token : Json) (url : String) : Run (Except FetchError Json) := do
  let h ← get
  let r : Request := ⟨url, token, timeout⟩
  set { h with requests := h.requests ++ [r] }
  readReply url (h.network r)

/-- A file and its variables. Without access to the variables there are none, and null stands for
none too. -/
def fetchDocument (token : Json) (fileKey : String) :
    Run (Except FetchError (Json × Option Json)) := do
  match ← fetch token (fileUrl fileKey) with
  | .error e => pure (.error e)
  | .ok file =>
    match ← fetch token (variablesUrl fileKey) with
    | .ok .null => pure (.ok (file, none))
    | .ok vars => pure (.ok (file, some vars))
    | .error e => do
      Run.warn (.noVariables e.message)
      pure (.ok (file, none))

end Remote

end DesignComponents
