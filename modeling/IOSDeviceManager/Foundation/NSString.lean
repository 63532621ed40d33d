import Mathlib

/-! # The `NSString` operations the program uses

Strings are Lean strings. `length` counts UTF-16 units, as `-[NSString length]` does; the suffix
test and the replacement work literally on characters. -/

namespace IOSDeviceManager

namespace NSString

/-- `-[NSString length]`: the number of UTF-16 units. -/
def length (s : String) : Nat :=
  (s.toList.map fun c => if c.toNat < 0x10000 then 1 else 2).sum

/-- The UTF-16 units, `-[NSString characterAtIndex:]` at one index after the other. -/
def unichars (s : String) : List Nat :=
  s.toList.flatMap fun c =>
    if c.toNat < 0x10000 then [c.toNat]
    else [0xD800 + (c.toNat - 0x10000) / 0x400, 0xDC00 + (c.toNat - 0x10000) % 0x400]

/-- `-[NSString hasSuffix:]`. -/
def hasSuffix (s suffix : String) : Bool :=
  suffix.toList.isSuffixOf s.toList

/-- `-[NSString hasPrefix:]`. -/
def hasPrefix (s str : String) : Bool :=
  str.toList.isPrefixOf s.toList

/-- `-[NSString containsString:]`. -/
def containsString (s str : String) : Bool :=
  decide (str.toList <:+: s.toList)

/-- Scan of `stringByReplacingOccurrencesOfString:withString:`; `skip` counts the characters of the
occurrence matched last that are still to be dropped. -/
def replaceFrom (target replacement : List Char) : Nat → List Char → List Char
  | _, [] => []
  | skip + 1, _ :: cs => replaceFrom target replacement skip cs
  | 0, c :: cs =>
      if target.isPrefixOf (c :: cs) then
        replacement ++ replaceFrom target replacement (target.length - 1) cs
      else c :: replaceFrom target replacement 0 cs

/-- `replace:with:` of `StringUtils.m`: every occurrence of a non-empty `subs`, from left to right,
gives way to `replacement`. -/
def replace (s subs replacement : String) : String :=
  String.ofList (replaceFrom subs.toList replacement.toList 0 s.toList)

/-- `-[NSString stringByAppendingPathComponent:]`. -/
def stringByAppendingPathComponent (s component : String) : String :=
  if s = "" || hasSuffix s "/" then s ++ component else s ++ "/" ++ component

/-- There are as many units as the length says. -/
theorem length_unichars (s : String) : (unichars s).length = length s := by
  rw [unichars, length, List.length_flatMap]
  congr 1
  refine List.map_congr_left fun c _ => ?_
  split <;> rfl

/-- Characters of one unit each. -/
theorem unichars_eq_map {s : String} (h : ∀ c ∈ s.toList, c.toNat < 0x10000) :
    unichars s = s.toList.map Char.toNat := by
  rw [unichars, ← List.flatMap_pure_eq_map]
  exact List.flatMap_congr fun c hc => if_pos (h c hc)

/-- A suffix test against an appended suffix succeeds. -/
@[simp] theorem hasSuffix_append (s suffix : String) : hasSuffix (s ++ suffix) suffix = true := by
  simp [hasSuffix, String.toList_append]

example : replace "ABCDEF12345.com.my.app" "ABCDEF12345." "" = "com.my.app" := by decide

end NSString

end IOSDeviceManager
