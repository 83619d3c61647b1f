import CurrentDrift.Decimal.Notation
import CurrentDrift.Mesh.Error

/-!
# Errors of moving particles

What keeps a current pattern from being scaled, varied or set up. The wording is in the `message`
functions.
-/

namespace CurrentDrift

/-- Why no scale factor can be found. -/
inductive ScaleFault (α : Type) where
  | referenceOutside
  | referenceTooSlow (length : α)
  | targetTooFast (target length : α)
  | noSuchPattern (name : String)
  deriving Repr

/-- Why points do not make a time series. -/
inductive SeriesFault (α : Type) where
  | lengths (times values : Nat)
  | empty
  | disorder (index : Nat) (time previous : α)
  deriving Repr

/-- Why a time series has no value at a time. -/
inductive LookupFault (α : Type) where
  | outsideRange (first last : α)
  | other (reason : String)
  deriving Repr

/-- Why there is no table of velocity errors. -/
inductive SpreadFault (α : Type) where
  | recordCount (records particles : Nat)
  | lifetime (value : α)
  | delay (value : α)
  | unbounded
  | other (reason : String)
  deriving Repr

inductive DriftError (α : Type) where
  | scale (fault : ScaleFault α)
  | recordMissing (set index : Nat)
  | lookup (time : α) (fault : LookupFault α)
  | series (fault : SeriesFault α)
  | spread (fault : SpreadFault α)
  | mesh (error : MeshError)
  deriving Repr

open Decimal

def ScaleFault.message : ScaleFault Float → String
  | referenceOutside => "参考点不在网格内"
  | referenceTooSlow length => "参考点流速过小 (" ++ inPowers 3 length ++ " m/s)"
  | targetTooFast target length =>
    "目标流速 " ++ inPowers 3 target ++ " 相对参考流速 " ++ inPowers 3 length ++ " 过大"
  | noSuchPattern name => "找不到流场模式 '" ++ name ++ "'"

def SeriesFault.message : SeriesFault Float → String
  | lengths times values =>
    "时间点数 " ++ toString times ++ " 与数值个数 " ++ toString values ++ " 不一致"
  | empty => "时间序列为空"
  | disorder index time previous =>
    "时间必须严格递增: times[" ++ toString index ++ "]=" ++ inText time ++ " <= times[" ++
      toString (index - 1) ++ "]=" ++ inText previous

def LookupFault.message : LookupFault Float → String
  | outsideRange first last => "超出数据范围 [" ++ inText first ++ ", " ++ inText last ++ "]"
  | other reason => reason

def SpreadFault.message : SpreadFault Float → String
  | recordCount records particles =>
    "记录数 " ++ toString records ++ " 与粒子总数 " ++ toString particles ++ " 不一致"
  | lifetime value => "重新抽样周期必须为正: " ++ inText value
  | delay value => "启用延迟不能为负: " ++ inText value
  | unbounded => "扰动范围必须为有限值"
  | other reason => reason

def DriftError.message : DriftError Float → String
  | scale fault => "缩放系数无法确定: " ++ fault.message
  | recordMissing set index =>
    "不确定性表缺失 (粒子集 " ++ toString set ++ ", 粒子 " ++ toString index ++ ")"
  | lookup time fault => "时间序列在 t=" ++ inText time ++ " 处查询失败: " ++ fault.message
  | series fault => "时间序列无效: " ++ fault.message
  | spread fault => "不确定性表构建失败: " ++ fault.message
  | mesh error => "网格错误: " ++ error.message

end CurrentDrift
