import CurrentDrift.Drift.Pattern
import CurrentDrift.Text.Dump

/-!
# Dumps of patterns

Current patterns and their parts as structure dumps.
-/

namespace CurrentDrift.Dump

open Decimal

def rule : ScaleRule Float → String
  | .unscaled => "None"
  | .toSpeed target => fields "ConstantTarget" [("target", inDump target)]
  | .toPattern name => fields "MatchOther" [("name", quoted name)]

/-- A pattern under its present scale. -/
def pattern {β γ : Type} (p : Pattern Float β γ) (scale : Float) : String :=
  fields "CurrentPattern" [("name", quoted p.name), ("policy", rule p.rule),
    ("ref_scale", inDump scale), ("on", bool p.isOn)]

end CurrentDrift.Dump
