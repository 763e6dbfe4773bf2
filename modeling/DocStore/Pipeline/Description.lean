import DocStore.Diagnostic
import DocStore.Double.Decimal
import DocStore.Json.Printer
import DocStore.Pipeline.Group
/-!
# Groupings in diagnostics

How a grouping's key and its contributions are shown. Numbers are shown without exponent, and whole
numbers without a point.
-/

namespace DocStore

/-- All digits of a number, without exponent; whole numbers have no point. -/
def Double.plainStyle : DecimalStyle where
  positional _ := true
  wholePoint := false
  plusSign := ""
  exponentWidth := 1
  mantissaPoint := false
  zeroSign := true

/-- The number without exponent. -/
def Double.plainText (d : Double) : String := Double.plainStyle.layout d.negative d.shortest

def GroupKey.describe : GroupKey → String
  | .record => "Record"
  | .field path => "Field(" ++ Diagnostic.quoted path ++ ")"
  | .constant value => "Constant(" ++ value.compact ++ ")"
  | .computed _ => "Custom(<fn>)"

def Contribution.describe : Contribution → String
  | .field path => "SumField(" ++ Diagnostic.quoted path ++ ")"
  | .constant amount => "SumConstant(" ++ amount.plainText ++ ")"
  | .computed _ => "Custom(<fn>)"

end DocStore
