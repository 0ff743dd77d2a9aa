import DesignComponents.Json.Display

/-!
What an operation remarks on without failing.
-/

namespace DesignComponents

inductive Warning
  | unknownNode (id : Json)
  | unsupportedProperty (type : Json) (name : String)
  | aliasCycle (id : Key)
  | unhandledNode (type name id : Json)
  | configNotObject (path : String)
  | unknownSection (name : String) (known : List String)
  | sectionNotObject (section_ : String) (kind : Json.Kind)
  | unknownSetting (section_ name : String) (known : List String)
  | nodeIdsNotTexts
  | badDebounce (value : Json)
  | noVariables (reason : String)

namespace Warning

def source : Warning → String
  | unknownNode .. | unsupportedProperty .. => "document"
  | aliasCycle .. => "variables"
  | unhandledNode .. => "ir"
  | noVariables .. => "figma"
  | _ => "config"

def message : Warning → String
  | unknownNode id => "找不到節點 '" ++ id.display ++ "'，已略過"
  | unsupportedProperty type name =>
    "不支援的屬性類型 '" ++ type.display ++ "'（" ++ name ++ "），已略過"
  | aliasCycle id => "alias cycle at '" ++ id.toJson.display ++ "'，停止解析"
  | unhandledNode type name id =>
    "未處理的節點類型 " ++ type.display ++ " '" ++ name.display ++ "' (" ++ id.display ++
      ")，視為無子節點"
  | configNotObject path => "'" ++ path ++ "' 格式錯誤，應為 JSON 物件，回傳空設定。"
  | unknownSection name known =>
    "未知頂層欄位 '" ++ name ++ "'（已知欄位：" ++ ", ".intercalate known ++ "）"
  | sectionNotObject s kind => "'" ++ s ++ "' 應為 JSON 物件，目前是 " ++ kind.name
  | unknownSetting s name known =>
    "[" ++ s ++ "] 未知欄位 '" ++ name ++ "'（已知欄位：" ++ ", ".intercalate known ++ "）"
  | nodeIdsNotTexts => "selection.nodeIds 應為字串陣列"
  | badDebounce v => "watch.debounceSeconds 應為非負數字，目前是 " ++ v.literal
  | noVariables reason => "無法讀取本地變數（" ++ reason ++ "），variables 將為空"

def line (w : Warning) : String := "   ⚠️  [" ++ w.source ++ "] " ++ w.message

end Warning

end DesignComponents
