/-!
# Constants and the naturals among the doubles

The doubles that have a name of their own. Infinity and NaN are given by their bits, because no
literal stands for them.
-/

namespace MapStyle.Number

instance instNatCastFloat : NatCast Float where
  natCast := Float.ofNat

def infinity : Float := Float.ofBits 0x7FF0000000000000

def nan : Float := Float.ofBits 0x7FF8000000000000

def pi : Float := 3.14159265358979323846

end MapStyle.Number
