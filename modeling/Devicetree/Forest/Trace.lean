import Devicetree.Event
import Devicetree.Forest

/-!
# What a walk tells of a forest

The notices of a walk through a forest in pre-order: a node is opened and closed at one depth and
what it holds lies one deeper.
-/

namespace Devicetree

namespace Forest

def notices (strings : Bytes) : (depth : Nat) → Forest → List Notice
  | _, nil => []
  | depth, nop next => next.notices strings depth
  | depth, property nameOffset value next =>
    .propertyPassed depth ((strings.stringAt? nameOffset.toNat).getD []) value.length ::
      next.notices strings depth
  | depth, node name items next =>
    .nodeOpened depth name :: (items.notices strings (depth + 1) ++
      .nodeClosed depth :: next.notices strings depth)

end Forest

end Devicetree
