import StatusLine.Decimal.Layout
import StatusLine.Fingerprint.Key

/-!
What shortening a script saves, in bytes.
-/

namespace StatusLine.Audit

structure Savings where
  rawSize : Nat
  optimizedSize : Nat
  deriving Repr, DecidableEq

namespace Savings

def size (text : List Char) : Nat :=
  (Fingerprint.utf8 text).length

def ofTexts (raw optimized : List Char) : Savings :=
  ⟨size raw, size optimized⟩

/-- The bytes saved; negative if the text has grown. -/
def reduced (savings : Savings) : Int :=
  (savings.rawSize : Int) - savings.optimizedSize

def percent (savings : Savings) : Float :=
  if savings.rawSize == 0 then 0.0
  else
    Decimal.round 2
      (Float.ofInt savings.reduced / Float.ofNat savings.rawSize * 100.0)

def ratio (savings : Savings) : List Char :=
  Decimal.fixed 3
    (if savings.rawSize == 0 then 1.0
      else Float.ofNat savings.optimizedSize / Float.ofNat savings.rawSize)

def datum (savings : Savings) : Datum :=
  .object [("original_size", .int savings.rawSize),
    ("optimized_size", .int savings.optimizedSize), ("bytes_reduced", .int savings.reduced),
    ("reduction_percent", .float savings.percent),
    ("compression_ratio", .text (String.ofList savings.ratio))]

end Savings

end StatusLine.Audit
