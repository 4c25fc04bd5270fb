/-!
Plain data, as the data formats write it: texts, flags, lists, and records whose fields have an
order.
-/

namespace KernelMenu

inductive Datum where
  | null
  | flag (value : Bool)
  | text (value : String)
  | list (items : List Datum)
  | record (fields : List (String × Datum))
deriving Repr, Inhabited

end KernelMenu
