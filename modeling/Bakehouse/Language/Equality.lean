import Bakehouse.Language.Store

namespace Bakehouse

namespace Value

mutual

def same (dishes : Handle → Dish) : Value → Value → Bool
  | .number x, .number y => x == y
  | .boolean a, .boolean b => a == b
  | .text s, .text t => s == t
  | .symbol s, .symbol t => s = t
  | .list xs, .list ys => sameAll dishes xs ys
  | .dish a, .dish b => (dishes a).same (dishes b)
  | .lambda a _ _ _, .lambda b _ _ _ => a == b
  | .native a _, .native b _ => a == b
  | _, _ => false

def sameAll (dishes : Handle → Dish) : List Value → List Value → Bool
  | [], [] => true
  | x :: xs, y :: ys => same dishes x y && sameAll dishes xs ys
  | _, _ => false

end

end Value

def Store.same (s : Store) (a b : Value) : Bool :=
  a.same s.dish b

end Bakehouse
