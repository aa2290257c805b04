/-!
# Powers

The power of two numbers is the one of the core library, in every module. Libraries
of algebra bring another one, that of monoids, which is equal to it but not the same
term; here it is not chosen where both are at hand.
-/

attribute [instance, default_instance 20000] instPowNat
