import EventContracts.Decimal.Shortest

/-!
# Decimal notation

How a double is written: positional between two powers of ten, with an exponent outside.
-/

namespace EventContracts

/-- The choices of a number format: the range of decimal points written positionally, and the sign
of a positive exponent. -/
structure NumberStyle where
  leastPoint : Int
  greatestPoint : Int
  positiveSign : String

namespace NumberStyle

def digitText (digits : List Nat) : String :=
  String.ofList (digits.map fun d => Char.ofNat ('0'.toNat + d))

/-- The magnitude `0.d₁d₂… · 10^point` in a style. Positional text always shows a decimal point. -/
def magnitude (style : NumberStyle) (decimal : Digits) : String :=
  let digits := decimal.digits
  let point := decimal.point
  if style.leastPoint ≤ point ∧ point ≤ style.greatestPoint then
    if point ≤ 0 then
      "0." ++ digitText (List.replicate (-point).toNat 0 ++ digits)
    else
      let whole := point.toNat
      let shown := digits ++ List.replicate (whole - digits.length) 0
      let fraction := shown.drop whole
      digitText (shown.take whole) ++ "." ++ digitText (if fraction.isEmpty then [0] else fraction)
  else
    let exponent := point - 1
    let sign := if exponent ≥ 0 then style.positiveSign else "-"
    let lead := match digits with
      | [] => ""
      | [d] => digitText [d]
      | d :: rest => digitText [d] ++ "." ++ digitText rest
    lead ++ "e" ++ sign ++ toString exponent.natAbs

def text (style : NumberStyle) (d : Double) : String :=
  (if d.negative then "-" else "") ++ style.magnitude (Digits.shortest d)

end NumberStyle

end EventContracts
