/-!
  Powers of whole numbers are the built-in ones, whatever other powers are in scope.
-/

attribute [instance (high), default_instance 20000] instPowNat
