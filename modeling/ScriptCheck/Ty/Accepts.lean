import ScriptCheck.Class.Lineage

/-!
Which types may be stored where another is expected.
-/

namespace ScriptCheck.Ty

/-- Whether something of the source type may be stored where the target type is expected. What is
only known to be mixed is accepted unless the check is strict, and null wherever the target admits
it. Containers accept containers with keys of the same kind, or with both kinds on one side. -/
def accepts (t : ClassTable) (strict : Bool) : (target source : Ty) → Bool
  | mixed, _ => true
  | _, mixed => !strict
  | target, null => target.isNullable
  | object, ofClass _ _ => true
  | ofClass id _, ofClass sourceId _ => t.isSubclass sourceId id
  | container key element, container sourceKey sourceElement =>
      (key == .either || sourceKey == .either || key == sourceKey)
        && accepts t strict element sourceElement
  | boolean, boolean => true
  | int, int => true
  | float, float => true
  | string, string => true
  | resource, resource => true
  | object, object => true
  | _, _ => false

end ScriptCheck.Ty
